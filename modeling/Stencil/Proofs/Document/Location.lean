import Stencil.Document.Block
import Stencil.Proofs.Comment.Scan

/-!
# Which block is located

The opening of a block is the earliest comment of either style that is an opening tag or a faulty
one, and its closing is the first closing tag behind it among the comments of the same style. It
makes no difference that the comments behind the opening are scanned anew: the new scan yields the
comments that the first scan had left.
-/

namespace Stencil.Block

open Text

/-- The comment is an opening tag with some attributes, or a faulty one for some reason. -/
def Opens (tag : Text) (comment : Comment) (result : Except MarkerError Attributes) : Prop :=
  Marker.read tag comment.text = result.map fun attributes => some (.opening attributes)

/-- The comment opens a block, or would if its tag were well formed. -/
def MayOpen (tag : Text) (comment : Comment) : Prop := ∃ result, Opens tag comment result

/-- The earliest comment of either style that may open a block. -/
structure IsFirst (text tag : Text) (start : Nat) (comment : Comment) : Prop where
  mem : comment ∈ Comment.scan text start comment.style
  mayOpen : MayOpen tag comment
  le : ∀ {style other}, other ∈ Comment.scan text start style → MayOpen tag other →
    comment.start ≤ other.start

/-- The block that an opening and a closing comment delimit. -/
def between (text : Text) (lines : LineTable) (floor : Nat) (attributes : Attributes)
    (opening closing : Comment) : Block :=
  let bodyStart := afterMarker text opening.stop
  let closingStart := indentStart text lines bodyStart closing.start
  { style := opening.style
    attributes
    opening := ⟨indentStart text lines floor opening.start, opening.stop⟩
    body := ⟨bodyStart, closingStart⟩
    closing := ⟨closingStart, closing.stop⟩
    resume := afterMarker text closing.stop }

/-- A comment is read in one way only. -/
theorem Opens.unique {tag : Text} {comment : Comment} {result other : Except MarkerError Attributes}
    (h : Opens tag comment result) (h' : Opens tag comment other) : result = other := by
  have heq := h.symm.trans h'
  cases result <;> cases other <;> simp [Except.map] at heq <;> rw [heq]

theorem mayOpen_iff {tag : Text} {comment : Comment} : MayOpen tag comment ↔
    (∃ attributes, Marker.read tag comment.text = .ok (some (.opening attributes))) ∨
      ∃ reason, Marker.read tag comment.text = .error reason := by
  constructor
  · rintro ⟨result, h⟩
    cases result with
    | error reason => exact Or.inr ⟨reason, h⟩
    | ok attributes => exact Or.inl ⟨attributes, h⟩
  · rintro (⟨attributes, h⟩ | ⟨reason, h⟩)
    · exact ⟨.ok attributes, h⟩
    · exact ⟨.error reason, h⟩

theorem isClosing_iff {tag : Text} {comment : Comment} :
    isClosing tag comment = true ↔ Marker.read tag comment.text = .ok (some .closing) := by
  unfold isClosing
  split
  · next h => simp [h]
  · next h => simpa using h

/-! ## Candidates -/

theorem of?_eq_some_iff {tag : Text} {comment : Comment} {candidate : Candidate} :
    Candidate.of? tag comment = some candidate ↔
      candidate.comment = comment ∧ Opens tag comment candidate.attributes := by
  obtain ⟨found, result⟩ := candidate
  unfold Candidate.of? Opens
  cases hread : Marker.read tag comment.text with
  | error reason => cases result <;> simp [Except.map, eq_comm]
  | ok marker =>
    cases marker with
    | none => cases result <;> simp [Except.map]
    | some marker => cases marker <;> cases result <;> simp [Except.map, eq_comm]

theorem of?_eq_none_iff {tag : Text} {comment : Comment} :
    Candidate.of? tag comment = none ↔ ¬ MayOpen tag comment := by
  constructor
  · rintro h ⟨result, hresult⟩
    have hsome : Candidate.of? tag comment = some ⟨comment, result⟩ :=
      of?_eq_some_iff.mpr ⟨rfl, hresult⟩
    simp [h] at hsome
  · intro h
    cases hof : Candidate.of? tag comment with
    | none => rfl
    | some candidate => exact absurd ⟨_, (of?_eq_some_iff.mp hof).2⟩ h

theorem firstCandidate_eq_none_iff {text tag : Text} {start : Nat} {style : Style} :
    firstCandidate text tag start style = none ↔
      ∀ comment ∈ Comment.scan text start style, ¬ MayOpen tag comment := by
  simp only [firstCandidate, List.findSome?_eq_none_iff, of?_eq_none_iff]

/-- The first candidate of a style begins no later than any other one of the style. -/
theorem firstCandidate_spec {text tag : Text} {start : Nat} {style : Style}
    {candidate : Candidate} (h : firstCandidate text tag start style = some candidate) :
    candidate.comment ∈ Comment.scan text start style ∧
      Opens tag candidate.comment candidate.attributes ∧
      ∀ other ∈ Comment.scan text start style, MayOpen tag other →
        candidate.comment.start ≤ other.start := by
  obtain ⟨earlier, comment, later, hscan, hof, hearlier⟩ := List.findSome?_eq_some_iff.mp h
  obtain ⟨rfl, hopens⟩ := of?_eq_some_iff.mp hof
  refine ⟨by simp [hscan], hopens, ?_⟩
  intro other hother hmay
  rw [hscan] at hother
  rcases List.mem_append.mp hother with hmem | hmem
  · exact absurd hmay (of?_eq_none_iff.mp (hearlier other hmem))
  · rcases List.mem_cons.mp hmem with rfl | hlater
    · exact Nat.le_refl _
    · have hstop := Comment.stop_le_start hscan hlater
      have := candidate.comment.content_within
      omega

theorem earlier_eq_none {line block : Option Candidate} (h : earlier line block = none) :
    line = none ∧ block = none := by
  cases line with
  | none => exact ⟨rfl, h⟩
  | some line =>
    cases block with
    | none => simp [earlier] at h
    | some block =>
      rw [earlier] at h
      split at h <;> simp at h

/-- A first candidate that no candidate of the other style precedes is the earliest of all. -/
private theorem isFirst_of_candidate {text tag : Text} {start : Nat} {style : Style}
    {candidate : Candidate} (h : firstCandidate text tag start style = some candidate)
    (hother : ∀ other ∈ Comment.scan text start (if style = .line then .block else .line),
      MayOpen tag other → candidate.comment.start ≤ other.start) :
    IsFirst text tag start candidate.comment ∧
      Opens tag candidate.comment candidate.attributes := by
  obtain ⟨hmem, hopens, hle⟩ := firstCandidate_spec h
  refine ⟨⟨?_, ⟨_, hopens⟩, ?_⟩, hopens⟩
  · rwa [Comment.style_of_mem_scan hmem]
  · intro style' other hscan hmay
    by_cases hstyle : style' = style
    · exact hle other (hstyle ▸ hscan) hmay
    · refine hother other ?_ hmay
      cases style <;> cases style' <;> simp_all

/-- The candidate that is taken is the earliest comment that may open a block. -/
theorem isFirst_of_earlier {text tag : Text} {start : Nat} {candidate : Candidate}
    (h : earlier (firstCandidate text tag start .line) (firstCandidate text tag start .block) =
      some candidate) :
    IsFirst text tag start candidate.comment ∧
      Opens tag candidate.comment candidate.attributes := by
  cases hline : firstCandidate text tag start .line with
  | none =>
    rw [hline] at h
    refine isFirst_of_candidate h fun other hscan hmay => ?_
    exact absurd hmay (firstCandidate_eq_none_iff.mp hline other hscan)
  | some line =>
    cases hblock : firstCandidate text tag start .block with
    | none =>
      rw [hline, hblock] at h
      obtain rfl := Option.some.inj h
      refine isFirst_of_candidate hline fun other hscan hmay => ?_
      exact absurd hmay (firstCandidate_eq_none_iff.mp hblock other hscan)
    | some block =>
      rw [hline, hblock, earlier] at h
      split at h
      · next hlt =>
        obtain rfl := Option.some.inj h
        refine isFirst_of_candidate hblock fun other hscan hmay => ?_
        exact Nat.le_trans (Nat.le_of_lt hlt) ((firstCandidate_spec hline).2.2 other hscan hmay)
      · next hge =>
        obtain rfl := Option.some.inj h
        refine isFirst_of_candidate hline fun other hscan hmay => ?_
        exact Nat.le_trans (Nat.le_of_not_lt hge) ((firstCandidate_spec hblock).2.2 other hscan hmay)

/-- No two comments are earliest. -/
theorem IsFirst.eq {text tag : Text} {start : Nat} {comment other : Comment}
    (h : IsFirst text tag start comment) (h' : IsFirst text tag start other) :
    comment = other := by
  have hstart : comment.start = other.start :=
    Nat.le_antisymm (h.le h'.mem h'.mayOpen) (h'.le h.mem h.mayOpen)
  have hstyle := Comment.style_eq_of_start_eq h.mem h'.mem hstart
  have hmem := h'.mem
  rw [← hstyle] at hmem
  obtain ⟨earlier, later, hscan⟩ := List.append_of_mem h.mem
  rw [hscan] at hmem
  rcases List.mem_append.mp hmem with hmem | hmem
  · obtain ⟨-, -, -, -, -, -, -, -, -, hearlier⟩ := Comment.exists_parts_of_scan hscan
    have hstop := hearlier other hmem
    have hrange := (Comment.scan_range h'.mem).2.1
    omega
  · rcases List.mem_cons.mp hmem with heq | hmem
    · exact heq.symm
    · have hstop := Comment.stop_le_start hscan hmem
      have hrange := (Comment.scan_range h.mem).2.1
      omega

/-! ## What is located -/

/-- Where no comment may open a block there is none. -/
theorem locateFrom_of_forall_not {text tag : Text} {start : Nat} (lines : LineTable) (floor : Nat)
    (h : ∀ style, ∀ comment ∈ Comment.scan text start style, ¬ MayOpen tag comment) :
    locateFrom text tag lines floor start = .ok none := by
  have hline := firstCandidate_eq_none_iff.mpr (h .line)
  have hblock := firstCandidate_eq_none_iff.mpr (h .block)
  simp only [locateFrom, hline, hblock, earlier]

private theorem earlier_of_isFirst {text tag : Text} {start : Nat} {opening : Comment}
    {result : Except MarkerError Attributes} (h : IsFirst text tag start opening)
    (hopens : Opens tag opening result) :
    earlier (firstCandidate text tag start .line) (firstCandidate text tag start .block) =
      some ⟨opening, result⟩ := by
  cases hearlier : earlier (firstCandidate text tag start .line)
      (firstCandidate text tag start .block) with
  | none =>
    obtain ⟨hline, hblock⟩ := earlier_eq_none hearlier
    have hnone : firstCandidate text tag start opening.style = none := by
      cases opening.style <;> assumption
    exact absurd h.mayOpen (firstCandidate_eq_none_iff.mp hnone opening h.mem)
  | some candidate =>
    obtain ⟨hfirst, hcandidate⟩ := isFirst_of_earlier hearlier
    obtain ⟨found, attributes⟩ := candidate
    obtain rfl : opening = found := h.eq hfirst
    obtain rfl : result = attributes := hopens.unique hcandidate
    rfl

variable {text tag : Text} {start : Nat} {opening : Comment} (lines : LineTable) (floor : Nat)

/-- A faulty tag that is the earliest is reported, whatever follows it. -/
theorem locateFrom_of_fault {reason : MarkerError} (h : IsFirst text tag start opening)
    (hopens : Opens tag opening (.error reason)) : locateFrom text tag lines floor start =
      .error (.invalidMarker tag (lines.line opening.start) reason) := by
  simp only [locateFrom, earlier_of_isFirst h hopens]

/-- An opening behind which no comment of its style is a closing tag is reported. -/
theorem locateFrom_of_unclosed {attributes : Attributes} (h : IsFirst text tag start opening)
    (hopens : Opens tag opening (.ok attributes))
    (hclosing : ∀ comment ∈ Comment.scan text opening.stop opening.style,
      isClosing tag comment = false) : locateFrom text tag lines floor start =
        .error (.unclosedBlock tag (lines.line opening.start)) := by
  have hfind : (Comment.scan text opening.stop opening.style).find? (isClosing tag) = none := by
    simpa using hclosing
  simp only [locateFrom, earlier_of_isFirst h hopens, hfind]

/-- The earliest opening and the first closing tag of its style behind it make a block. -/
theorem locateFrom_of_closed {attributes : Attributes} {skipped later : List Comment}
    {closing : Comment} (h : IsFirst text tag start opening)
    (hopens : Opens tag opening (.ok attributes))
    (hscan : Comment.scan text opening.stop opening.style = skipped ++ closing :: later)
    (hskipped : ∀ comment ∈ skipped, isClosing tag comment = false)
    (hclosing : isClosing tag closing = true) : locateFrom text tag lines floor start =
      .ok (some (between text lines floor attributes opening closing)) := by
  have hfind : (Comment.scan text opening.stop opening.style).find? (isClosing tag) =
      some closing := by
    rw [hscan, List.find?_append, List.find?_eq_none.mpr (by simpa using hskipped)]
    simp [hclosing]
  simp only [locateFrom, earlier_of_isFirst h hopens, hfind]
  rfl

/-- Either no comment may open a block, or one of them is the earliest. -/
theorem forall_not_or_exists_isFirst (text tag : Text) (start : Nat) :
    (∀ style, ∀ comment ∈ Comment.scan text start style, ¬ MayOpen tag comment) ∨
      ∃ comment, IsFirst text tag start comment := by
  cases hearlier : earlier (firstCandidate text tag start .line)
      (firstCandidate text tag start .block) with
  | none =>
    obtain ⟨hline, hblock⟩ := earlier_eq_none hearlier
    left
    intro style
    cases style
    · exact firstCandidate_eq_none_iff.mp hline
    · exact firstCandidate_eq_none_iff.mp hblock
  | some candidate => exact Or.inr ⟨_, (isFirst_of_earlier hearlier).1⟩

/-! ## Locating from a byte offset -/

/-- A comment of either style that stands behind a byte offset and that is an opening tag or a
faulty one. -/
def Contends (text tag : Text) (offset : Nat) (comment : Comment) : Prop :=
  (comment ∈ Comment.scanAt text offset .line ∨ comment ∈ Comment.scanAt text offset .block) ∧
    ((∃ attributes, Marker.read tag comment.text = .ok (some (.opening attributes))) ∨
      ∃ reason, Marker.read tag comment.text = .error reason)

theorem contends_iff {text tag : Text} {offset : Nat} {comment : Comment} :
    Contends text tag offset comment ↔
      (∃ style, comment ∈ Comment.scan text (positionAfter offset text) style) ∧
        MayOpen tag comment := by
  rw [Contends, mayOpen_iff]
  refine and_congr_left fun _ => ⟨?_, ?_⟩
  · rintro (h | h)
    · exact ⟨.line, h⟩
    · exact ⟨.block, h⟩
  · rintro ⟨style, h⟩
    cases style
    · exact Or.inl h
    · exact Or.inr h

/-- The contender that begins no later than any other. -/
def IsEarliest (text tag : Text) (offset : Nat) (opening : Comment) : Prop :=
  Contends text tag offset opening ∧
    ∀ other, Contends text tag offset other → opening.start ≤ other.start

theorem isEarliest_iff {text tag : Text} {offset : Nat} {opening : Comment} :
    IsEarliest text tag offset opening ↔ IsFirst text tag (positionAfter offset text) opening := by
  constructor
  · rintro ⟨h, hle⟩
    obtain ⟨⟨style, hmem⟩, hmay⟩ := contends_iff.mp h
    refine ⟨?_, hmay, ?_⟩
    · rwa [Comment.style_of_mem_scan hmem]
    · intro style other hother hopens
      exact hle other (contends_iff.mpr ⟨⟨style, hother⟩, hopens⟩)
  · intro h
    refine ⟨contends_iff.mpr ⟨⟨_, h.mem⟩, h.mayOpen⟩, fun other hother => ?_⟩
    obtain ⟨⟨style, hmem⟩, hmay⟩ := contends_iff.mp hother
    exact h.le hmem hmay

/-- What is located from a byte offset, told by the comments behind it. The comments `later` are
those behind the opening in the one scan of its style from the offset. -/
inductive Selects (text tag : Text) (offset : Nat) : Except Error (Option Block) → Prop
  | nothing (h : ∀ comment, ¬ Contends text tag offset comment) : Selects text tag offset (.ok none)
  | fault {opening : Comment} {reason : MarkerError} (h : IsEarliest text tag offset opening)
      (hread : Marker.read tag opening.text = .error reason) :
      Selects text tag offset
        (.error (.invalidMarker tag ((LineTable.ofText text).line opening.start) reason))
  | unclosed {opening : Comment} {attributes : Attributes} {earlier later : List Comment}
      (h : IsEarliest text tag offset opening)
      (hread : Marker.read tag opening.text = .ok (some (.opening attributes)))
      (hscan : Comment.scanAt text offset opening.style = earlier ++ opening :: later)
      (hlater : ∀ comment ∈ later, Marker.read tag comment.text ≠ .ok (some .closing)) :
      Selects text tag offset
        (.error (.unclosedBlock tag ((LineTable.ofText text).line opening.start)))
  /-- The comments between the opening and the closing may be anything but closing tags. -/
  | closed {opening closing : Comment} {attributes : Attributes}
      {earlier skipped later : List Comment} (h : IsEarliest text tag offset opening)
      (hread : Marker.read tag opening.text = .ok (some (.opening attributes)))
      (hscan : Comment.scanAt text offset opening.style =
        earlier ++ opening :: (skipped ++ closing :: later))
      (hskipped : ∀ comment ∈ skipped, Marker.read tag comment.text ≠ .ok (some .closing))
      (hclosing : Marker.read tag closing.text = .ok (some .closing)) :
      Selects text tag offset (.ok (some (between text (LineTable.ofText text)
        (positionWithin offset text) attributes opening closing)))

theorem isClosing_eq_false_iff {tag : Text} {comment : Comment} :
    isClosing tag comment = false ↔ Marker.read tag comment.text ≠ .ok (some .closing) := by
  rw [ne_eq, ← isClosing_iff, Bool.not_eq_true]

/-- The comments behind the opening are the same in a scan that begins at its end. -/
theorem scan_stop {text : Text} {offset : Nat} {opening : Comment}
    {earlier later : List Comment}
    (h : Comment.scanAt text offset opening.style = earlier ++ opening :: later) :
    Comment.scan text opening.stop opening.style = later := by
  obtain ⟨-, -, -, -, -, -, -, -, hlater, -⟩ := Comment.exists_parts_of_scan h
  exact hlater.symm

/-- What the comments tell is what is located. -/
private theorem locate_of_selects {text tag : Text} {offset : Nat}
    {result : Except Error (Option Block)} (h : Selects text tag offset result) :
    locate text tag offset = result := by
  cases h with
  | nothing h =>
    refine locateFrom_of_forall_not _ _ fun style comment hmem hmay => ?_
    exact h comment (contends_iff.mpr ⟨⟨style, hmem⟩, hmay⟩)
  | fault h hread => exact locateFrom_of_fault _ _ (isEarliest_iff.mp h) hread
  | unclosed h hread hscan hlater =>
    refine locateFrom_of_unclosed _ _ (isEarliest_iff.mp h) hread fun comment hmem => ?_
    rw [scan_stop hscan] at hmem
    exact isClosing_eq_false_iff.mpr (hlater comment hmem)
  | closed h hread hscan hskipped hclosing =>
    exact locateFrom_of_closed _ _ (isEarliest_iff.mp h) hread (scan_stop hscan)
      (fun comment hmem => isClosing_eq_false_iff.mpr (hskipped comment hmem))
      (isClosing_iff.mpr hclosing)

/-- The comments always tell what is located. -/
private theorem exists_selects (text tag : Text) (offset : Nat) :
    ∃ result, Selects text tag offset result := by
  rcases forall_not_or_exists_isFirst text tag (positionAfter offset text) with h | ⟨opening, h⟩
  · refine ⟨_, .nothing fun comment hcomment => ?_⟩
    obtain ⟨⟨style, hmem⟩, hmay⟩ := contends_iff.mp hcomment
    exact h style comment hmem hmay
  · have hearliest := isEarliest_iff.mpr h
    rcases mayOpen_iff.mp h.mayOpen with ⟨attributes, hread⟩ | ⟨reason, hread⟩
    · obtain ⟨earlier, later, hscan⟩ := List.append_of_mem h.mem
      cases hfind : later.find? (isClosing tag) with
      | none =>
        refine ⟨_, .unclosed hearliest hread hscan fun comment hmem => ?_⟩
        rw [← isClosing_eq_false_iff, ← Bool.not_eq_true]
        exact List.find?_eq_none.mp hfind comment hmem
      | some closing =>
        obtain ⟨hclosing, skipped, rest, rfl, hskipped⟩ := List.find?_eq_some_iff_append.mp hfind
        refine ⟨_, .closed hearliest hread hscan (fun comment hmem => ?_)
          (isClosing_iff.mp hclosing)⟩
        rw [← isClosing_eq_false_iff]
        simpa using hskipped comment hmem
    · exact ⟨_, .fault hearliest hread⟩

/-- What is located is told by the comments. -/
theorem selects_locate (text tag : Text) (offset : Nat) :
    Selects text tag offset (locate text tag offset) := by
  obtain ⟨result, h⟩ := exists_selects text tag offset
  rwa [locate_of_selects h]

/-- What is located is what the comments behind the offset tell: nothing exactly where there is no
contender, and otherwise the earliest one decides, with the first closing tag behind it in the one
scan of its style. Contenders of different styles never begin at the same position. -/
theorem locate_eq_iff_selects (text tag : Text) (offset : Nat)
    (result : Except Error (Option Block)) :
    (locate text tag offset = result ↔ Selects text tag offset result) ∧
      ∀ comment other, Contends text tag offset comment → Contends text tag offset other →
        comment.style ≠ other.style → comment.start ≠ other.start := by
  constructor
  · constructor
    · rintro rfl
      exact selects_locate text tag offset
    · exact locate_of_selects
  · intro comment other hcomment hother hstyle hstart
    obtain ⟨⟨style, hmem⟩, -⟩ := contends_iff.mp hcomment
    obtain ⟨⟨style', hmem'⟩, -⟩ := contends_iff.mp hother
    apply hstyle
    rw [Comment.style_of_mem_scan hmem, Comment.style_of_mem_scan hmem']
    exact Comment.style_eq_of_start_eq hmem hmem' hstart

end Stencil.Block
