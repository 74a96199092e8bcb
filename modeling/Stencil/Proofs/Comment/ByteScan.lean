import Stencil.Proofs.Comment.Bytes
import Stencil.Proofs.Text.Lines
import Stencil.Proofs.Text.Slice

/-!
# Scanning bytes

A scan of bytes keeps a cursor and looks for one comment after the other behind it. It never looks
beyond the bytes, whatever they are, and each step moves the cursor forward. So it yields the one
way to cut the bytes, and for the bytes of a text the ranges of the comments of the text.
-/

namespace Stencil.Bytes

open Text Comment

/-- Where the line ends that holds an offset. -/
def lineStop? (bytes : List UInt8) (start : Nat) : Option Nat := do
  let behind ← slice? bytes ⟨start, bytes.length⟩
  return (behind.idxOf? 10).elim bytes.length (start + ·)

/-- The next line comment behind a cursor, and where the line ends. -/
def nextLine? (bytes : List UInt8) (cursor : Nat) : Option (Option (ByteRanges × Nat)) := do
  let rest ← slice? bytes ⟨cursor, bytes.length⟩
  match find? (utf8 ['/', '/']) rest with
  | none => return none
  | some before =>
    let start := cursor + before
    let stop ← lineStop? bytes start
    let line ← slice? bytes ⟨start, stop⟩
    let slashesStop := start + (line.takeWhile (onByte (· == '/'))).length
    let contentStop ← skipBack? (onByte isLineEnd) bytes slashesStop stop
    let contentStart ← skip? (onByte isBlank) bytes slashesStop contentStop
    return some (⟨⟨start, contentStop⟩, ⟨contentStart, contentStop⟩⟩, stop)

/-- The next block comment behind a cursor, and where it ends. -/
def nextBlock? (bytes : List UInt8) (cursor : Nat) : Option (Option (ByteRanges × Nat)) := do
  let rest ← slice? bytes ⟨cursor, bytes.length⟩
  match find? (utf8 ['/', '*']) rest with
  | none => return none
  | some before =>
    let start := cursor + before
    let inside ← slice? bytes ⟨start + 2, bytes.length⟩
    match find? (utf8 ['*', '/']) inside with
    | none => return none
    | some length =>
      let stop := start + 2 + length
      let contentStart ← skip? (onByte isAsciiSpace) bytes (start + 2) stop
      let contentStop ← skipBack? (onByte isAsciiSpace) bytes contentStart stop
      return some (⟨⟨start, stop + 2⟩, ⟨contentStart, contentStop⟩⟩, stop + 2)

/-- The next comment of a style behind a cursor, and where to look for another one. -/
def next? : Style → List UInt8 → Nat → Option (Option (ByteRanges × Nat))
  | .line => nextLine?
  | .block => nextBlock?

/-- The comments of a style behind a cursor. A step that does not move the cursor forward fails. -/
def comments? (style : Style) (bytes : List UInt8) (cursor : Nat) : Option (List ByteRanges) :=
  match next? style bytes cursor with
  | none => none
  | some none => some []
  | some (some (ranges, next)) =>
    if cursor < next ∧ next ≤ bytes.length then (comments? style bytes next).map (ranges :: ·)
    else none
  termination_by bytes.length - cursor

/-- The comments of a style at or after an offset. -/
def scan? (style : Style) (bytes : List UInt8) (offset : Nat) : Option (List ByteRanges) :=
  comments? style bytes (min offset bytes.length)

section

variable {style : Style} {bytes : List UInt8} {cursor next : Nat} {ranges : ByteRanges}

theorem comments?_of_none (h : next? style bytes cursor = some none) :
    comments? style bytes cursor = some [] := by
  rw [comments?, h]

theorem comments?_of_some (h : next? style bytes cursor = some (some (ranges, next)))
    (hlt : cursor < next) (hle : next ≤ bytes.length) :
    comments? style bytes cursor = (comments? style bytes next).map (ranges :: ·) := by
  rw [comments?, h]
  exact if_pos ⟨hlt, hle⟩

end

/-! ## Block comments -/

theorem find?_opener {gap : List UInt8} (inside : List UInt8) (hgap : ¬ utf8 ['/', '*'] <:+: gap) :
    find? (utf8 ['/', '*']) (gap ++ utf8 ['/', '*'] ++ inside) = some gap.length :=
  find?_append _ (not_pair_infix_append_singleton (a := 47) (b := 42) (by decide) hgap)

theorem find?_closer {interior : List UInt8} (rest : List UInt8)
    (hinterior : ¬ utf8 ['*', '/'] <:+: interior) :
    find? (utf8 ['*', '/']) (interior ++ utf8 ['*', '/'] ++ rest) = some interior.length :=
  find?_append _ (not_pair_infix_append_singleton (a := 42) (b := 47) (by decide) hinterior)

section

variable {bytes front gap inside lead content trail rest : List UInt8}

theorem nextBlock?_unopened (hbytes : bytes = front ++ rest) (h : ¬ utf8 ['/', '*'] <:+: rest) :
    nextBlock? bytes front.length = some none := by
  have hfind : find? (utf8 ['/', '*']) rest = none := find?_eq_none_iff.mpr h
  simp only [nextBlock?, slice?_rest hbytes rfl, hfind, Option.bind_eq_bind, Option.bind_some,
    Option.pure_def]

/-- Behind an opener a closer is looked for. -/
private theorem slice?_inside (hbytes : bytes = front ++ (gap ++ utf8 ['/', '*'] ++ inside)) :
    slice? bytes ⟨front.length + gap.length + 2, bytes.length⟩ = some inside := by
  refine @slice?_rest _ (front ++ gap ++ utf8 ['/', '*']) _ _ ?_ ?_
  · simp only [hbytes, List.append_assoc]
  · simp only [List.length_append]
    rfl

theorem nextBlock?_unclosed (hbytes : bytes = front ++ (gap ++ utf8 ['/', '*'] ++ inside))
    (hgap : ¬ utf8 ['/', '*'] <:+: gap) (hclose : ¬ utf8 ['*', '/'] <:+: inside) :
    nextBlock? bytes front.length = some none := by
  have hfind : find? (utf8 ['*', '/']) inside = none := find?_eq_none_iff.mpr hclose
  simp only [nextBlock?, slice?_rest hbytes rfl, find?_opener inside hgap, slice?_inside hbytes,
    hfind, Option.bind_eq_bind, Option.bind_some, Option.pure_def]

theorem nextBlock?_comment (hbytes : bytes = front ++ (gap ++ utf8 ['/', '*'] ++ inside))
    (hgap : ¬ utf8 ['/', '*'] <:+: gap)
    (hinside : inside = lead ++ content ++ trail ++ utf8 ['*', '/'] ++ rest)
    (hclose : ¬ utf8 ['*', '/'] <:+: lead ++ content ++ trail)
    (htrims : Trims (onByte isAsciiSpace) (onByte isAsciiSpace) lead content trail)
    (hempty : content = [] → trail = []) :
    nextBlock? bytes front.length =
      some (some (.ofSizes (front.length + gap.length) 2 lead.length content.length
        (trail.length + 2),
          front.length + gap.length + 2 + (lead ++ content ++ trail).length + 2)) := by
  have hfind := find?_closer rest hclose
  rw [← hinside] at hfind
  have hstart : (front ++ gap ++ utf8 ['/', '*']).length = front.length + gap.length + 2 := by
    simp only [List.length_append]
    rfl
  have hsplit : bytes = front ++ gap ++ utf8 ['/', '*'] ++ (lead ++ content ++ trail) ++
      (utf8 ['*', '/'] ++ rest) := by
    simp only [hbytes, hinside, List.append_assoc]
  have hstop : ∀ start : Nat, content = [] →
      start + (lead ++ content ++ trail).length ≤ start + lead.length := by
    intro start hnil
    simp [hnil, hempty hnil]
  have hskip := skip?_content hsplit htrims (by simp) (Nat.le_refl _) (hstop _)
  have hback := skipBack?_content hsplit htrims (Nat.le_add_right _ _) fun _ => Nat.le_refl _
  rw [hstart] at hskip hback
  simp only [nextBlock?, slice?_rest hbytes rfl, find?_opener inside hgap, slice?_inside hbytes,
    hfind, hskip, hback, Option.bind_eq_bind, Option.bind_some, Option.pure_def, ByteRanges.ofSizes]
  simp only [List.length_append, Option.some.injEq, Prod.mk.injEq, ByteRanges.mk.injEq,
    Span.mk.injEq, true_and, and_true]
  omega

/-- The comment between two delimiters is found, and the scan goes on behind it. -/
theorem exists_comments?_block (hbytes : bytes = front ++ (gap ++ utf8 ['/', '*'] ++ inside))
    (hgap : ¬ utf8 ['/', '*'] <:+: gap) (h : utf8 ['*', '/'] <:+: inside) :
    ∃ before rest ranges, bytes = before ++ rest ∧ rest.length < inside.length ∧
      (∀ more, comments? .block bytes before.length = some more →
        comments? .block bytes front.length = some (ranges :: more)) ∧
      ∀ more, CutsBlocks before.length rest more →
        CutsBlocks front.length (gap ++ utf8 ['/', '*'] ++ inside) (ranges :: more) := by
  obtain ⟨interior, rest, hinside, hfree⟩ := exists_first_of_infix (by decide) h
  have hclose := fun h => hfree (List.IsInfix.trans h (List.prefix_append interior _).isInfix)
  obtain ⟨lead, content, trail, rfl, htrims, hempty⟩ :=
    @exists_trims _ (onByte isAsciiSpace) _ (fun _ => id) interior
  have hnext := nextBlock?_comment hbytes hgap hinside hclose htrims hempty
  have hsplit : bytes = front ++ gap ++ utf8 ['/', '*'] ++ (lead ++ content ++ trail) ++
      utf8 ['*', '/'] ++ rest := by
    simp only [hbytes, hinside, List.append_assoc]
  have hlength : (front ++ gap ++ utf8 ['/', '*'] ++ (lead ++ content ++ trail) ++
      utf8 ['*', '/']).length =
        front.length + gap.length + 2 + (lead ++ content ++ trail).length + 2 := by
    simp only [List.length_append]
    rfl
  have hle : front.length + gap.length + 2 + (lead ++ content ++ trail).length + 2 ≤
      bytes.length := by
    rw [← hlength, hsplit]
    exact (List.prefix_append _ rest).length_le
  refine ⟨_, rest, .ofSizes (front.length + gap.length) 2 lead.length content.length
    (trail.length + 2), hsplit, ?_, ?_⟩
  · have hcloser : (utf8 ['*', '/']).length = 2 := by decide
    simp only [hinside, List.length_append]
    omega
  · rw [hlength]
    refine ⟨fun more hmore => ?_, fun more => .comment rfl hgap hinside hclose htrims hempty⟩
    rw [@comments?_of_some .block _ _ _ _ hnext (by omega) hle, hmore, Option.map_some]

end

/-- The block comments behind a cursor are cut in the one way. -/
theorem cutsBlocks_comments? {bytes front rest : List UInt8} (hbytes : bytes = front ++ rest) :
    ∃ ranges, comments? .block bytes front.length = some ranges ∧
      CutsBlocks front.length rest ranges := by
  obtain ⟨n, hn⟩ : ∃ n, rest.length = n := ⟨_, rfl⟩
  induction n using Nat.strongRecOn generalizing front rest with
  | _ n ih =>
    by_cases hopen : utf8 ['/', '*'] <:+: rest
    · obtain ⟨gap, inside, rfl, hfree⟩ := exists_first_of_infix (by decide) hopen
      have hgap := fun h => hfree (List.IsInfix.trans h (List.prefix_append gap _).isInfix)
      by_cases hclose : utf8 ['*', '/'] <:+: inside
      · obtain ⟨before, rest, range, hsplit, hlt, hcomment, hcuts⟩ :=
          exists_comments?_block hbytes hgap hclose
        have hshorter : rest.length < n := by
          simp only [← hn, List.length_append]
          omega
        obtain ⟨more, hmore, hrest⟩ := ih _ hshorter hsplit rfl
        exact ⟨range :: more, hcomment more hmore, hcuts more hrest⟩
      · exact ⟨[], comments?_of_none (nextBlock?_unclosed hbytes hgap hclose),
          .unclosed rfl hgap hclose⟩
    · exact ⟨[], comments?_of_none (nextBlock?_unopened hbytes hopen), .unopened hopen⟩

/-! ## Line comments -/

section

variable {bytes front before slashes lead content tail line rest : List UInt8}

theorem idxOf?_append_cons {mark : UInt8} (h : mark ∉ line) :
    (line ++ mark :: rest).idxOf? mark = some line.length := by
  refine List.idxOf?_eq_some_iff.mpr ⟨by simp, by simp, fun i hi hmark => ?_⟩
  rw [List.getElem_append_left hi] at hmark
  exact h (hmark ▸ List.getElem_mem hi)

/-- From a place in a line on, the rest of the line is cut out. -/
theorem lineStop?_append {behind : List UInt8} (hbytes : bytes = front ++ (line ++ rest))
    (hfeed : 10 ∉ line) (hrest : ∀ byte ∈ rest.head?, byte = 10) (hline : line = before ++ behind) :
    lineStop? bytes (front.length + before.length) = some (front.length + line.length) ∧
      slice? bytes ⟨front.length + before.length, front.length + line.length⟩ = some behind := by
  have hsplit : bytes = front ++ before ++ behind ++ rest := by
    simp only [hbytes, hline, List.append_assoc]
  have hstart : (front ++ before).length = front.length + before.length := List.length_append
  have hstop : front.length + before.length + behind.length = front.length + line.length := by
    rw [hline, List.length_append, Nat.add_assoc]
  have hslice := slice?_append (front ++ before) behind rest
  rw [← hsplit, hstart, hstop] at hslice
  refine ⟨?_, hslice⟩
  rw [List.append_assoc] at hsplit
  have hbehind : 10 ∉ behind := fun hmem => hfeed (hline ▸ List.mem_append_right before hmem)
  simp only [lineStop?, slice?_rest hsplit hstart, Option.bind_eq_bind, Option.bind_some,
    Option.pure_def, ← hstop]
  cases rest with
  | nil =>
    have hnone : (behind ++ []).idxOf? 10 = none := by simpa using hbehind
    rw [hnone, hsplit]
    simp [Nat.add_assoc]
  | cons byte rest =>
    obtain rfl := hrest byte rfl
    rw [idxOf?_append_cons hbehind]
    rfl

theorem nextLine?_none (hbytes : bytes = front ++ rest) (h : ¬ utf8 ['/', '/'] <:+: rest) :
    nextLine? bytes front.length = some none := by
  have hfind : find? (utf8 ['/', '/']) rest = none := find?_eq_none_iff.mpr h
  simp only [nextLine?, slice?_rest hbytes rfl, hfind, Option.bind_eq_bind, Option.bind_some,
    Option.pure_def]

/-- A line without slashes in a row is passed over. -/
theorem nextLine?_skip (hbytes : bytes = front ++ (line ++ 10 :: rest))
    (hnone : ¬ utf8 ['/', '/'] <:+: line) :
    nextLine? bytes front.length = nextLine? bytes (front.length + line.length + 1) := by
  have hfind : find? (utf8 ['/', '/']) (line ++ 10 :: rest) =
      (find? (utf8 ['/', '/']) rest).map ((line ++ [10]).length + ·) := by
    have hfree : ¬ [(47 : UInt8), 47] <:+: line ++ [10] := by
      rw [pair_infix_append]
      rintro (h | h | ⟨-, h⟩)
      · exact hnone h
      · exact absurd h.length_le (by decide)
      · exact absurd h (by decide)
    rw [List.append_cons line 10 rest]
    exact find?_pair_append_of_not rest hfree (by simp)
  have hrest : slice? bytes ⟨front.length + line.length + 1, bytes.length⟩ = some rest := by
    refine @slice?_rest _ (front ++ line ++ [10]) _ _ ?_ ?_
    · simp [hbytes]
    · simp [Nat.add_assoc]
  simp only [nextLine?, slice?_rest hbytes rfl, hrest, hfind, Option.bind_eq_bind, Option.bind_some,
    Option.pure_def]
  cases find? (utf8 ['/', '/']) rest with
  | none => rfl
  | some before =>
    have hstart : front.length + ((line ++ [10]).length + before) =
        front.length + line.length + 1 + before := by
      simp [Nat.add_assoc]
    simp only [Option.map_some, hstart]

theorem comments?_skip {ranges : List ByteRanges} (hbytes : bytes = front ++ (line ++ 10 :: rest))
    (hnone : ¬ utf8 ['/', '/'] <:+: line)
    (h : comments? .line bytes (front.length + line.length + 1) = some ranges) :
    comments? .line bytes front.length = some ranges := by
  rw [comments?, next?, ← nextLine?_skip hbytes hnone] at h
  rw [comments?, next?]
  split at h
  · exact absurd h (by simp)
  · exact h
  · split at h
    · next hnext =>
      rw [if_pos ⟨by omega, hnext.2⟩]
      exact h
    · exact absurd h (by simp)

theorem nextLine?_comment (hbytes : bytes = front ++ (line ++ rest)) (hfeed : 10 ∉ line)
    (hrest : ∀ byte ∈ rest.head?, byte = 10)
    (hline : line = before ++ slashes ++ (lead ++ content ++ tail))
    (hbefore : ¬ utf8 ['/', '/'] <:+: before ++ utf8 ['/'])
    (htwo : utf8 ['/', '/'] <+: slashes)
    (hslashes : ∀ byte ∈ slashes, onByte (· == '/') byte = true)
    (hrun : ∀ byte ∈ (lead ++ content ++ tail).head?, onByte (· == '/') byte = false)
    (htrims : Trims (onByte isBlank) (onByte isLineEnd) lead content tail)
    (hempty : content = [] → lead = []) :
    nextLine? bytes front.length =
      some (some (.ofSizes (front.length + before.length) slashes.length lead.length content.length
        0, front.length + line.length)) := by
  have hfind : find? (utf8 ['/', '/']) (line ++ rest) = some before.length := by
    obtain ⟨more, rfl⟩ := htwo
    have hfound := @find?_append _ _ _ _ _ (more ++ (lead ++ content ++ tail) ++ rest)
      (by decide : utf8 ['/', '/'] ≠ []) hbefore
    simpa only [hline, List.append_assoc] using hfound
  obtain ⟨hstop, hslice⟩ :=
    lineStop?_append hbytes hfeed hrest (hline.trans (List.append_assoc _ _ _))
  have hsplit : bytes = front ++ before ++ slashes ++ (lead ++ content ++ tail) ++ rest := by
    simp only [hbytes, hline, List.append_assoc]
  have hend : (front ++ before ++ slashes).length + (lead ++ content ++ tail).length =
      front.length + line.length := by
    simp only [hline, List.length_append]
    omega
  have hback : skipBack? (onByte isLineEnd) bytes (front ++ before ++ slashes).length
      (front.length + line.length) =
        some ((front ++ before ++ slashes).length + lead.length + content.length) := by
    rw [← hend]
    exact skipBack?_content hsplit htrims (by omega) fun hnil => by simp [hempty hnil]
  have hskip : skip? (onByte isBlank) bytes (front ++ before ++ slashes).length
      ((front ++ before ++ slashes).length + lead.length + content.length) =
        some ((front ++ before ++ slashes).length + lead.length) := by
    refine skip?_content hsplit htrims (Nat.le_add_right _ _) ?_ fun hnil => by simp [hnil]
    simp only [List.length_append]
    omega
  rw [List.length_append, List.length_append] at hback hskip
  simp only [nextLine?, slice?_rest hbytes rfl, hfind, hstop, hslice, takeWhile_run hslashes hrun,
    hback, hskip, Option.bind_eq_bind, Option.bind_some, Option.pure_def, ByteRanges.ofSizes,
    Nat.add_zero]

/-- Slashes in a row begin a comment, which the rest of the line is trimmed to. -/
theorem exists_comment_of_infix (h : utf8 ['/', '/'] <:+: line) :
    ∃ before slashes lead content tail, line = before ++ slashes ++ (lead ++ content ++ tail) ∧
      ¬ utf8 ['/', '/'] <:+: before ++ utf8 ['/'] ∧ utf8 ['/', '/'] <+: slashes ∧
      (∀ byte ∈ slashes, onByte (· == '/') byte = true) ∧
      (∀ byte ∈ (lead ++ content ++ tail).head?, onByte (· == '/') byte = false) ∧
      Trims (onByte isBlank) (onByte isLineEnd) lead content tail ∧ (content = [] → lead = []) := by
  obtain ⟨before, after, hline, hbefore⟩ := exists_first_of_infix (by decide) h
  have hafter := List.takeWhile_append_dropWhile (p := onByte (· == '/')) (l := after)
  have hrun := List.head?_dropWhile_not (onByte (· == '/')) after
  -- The end is trimmed first, so it is the run in front of the reversed rest.
  obtain ⟨tail, content, lead, hrest, htrims, hempty⟩ :=
    @exists_trims _ _ (onByte isBlank) onByte_isLineEnd
      (after.dropWhile (onByte (· == '/'))).reverse
  have hbehind : after.dropWhile (onByte (· == '/')) =
      lead.reverse ++ content.reverse ++ tail.reverse := by
    have hreverse := congrArg List.reverse hrest
    simpa using hreverse
  refine ⟨before, utf8 ['/', '/'] ++ after.takeWhile (onByte (· == '/')), lead.reverse,
    content.reverse, tail.reverse, ?_, hbefore, List.prefix_append _ _, ?_, ?_, htrims.reverse, ?_⟩
  · simp only [hline, ← hbehind, List.append_assoc, hafter]
  · refine List.forall_mem_append.mpr ⟨?_, fun byte hbyte => List.mem_takeWhile_imp hbyte⟩
    exact (forall_onByte_iff fun _ => slash_of_le).mpr (by simp)
  · intro byte hbyte
    rw [← hbehind] at hbyte
    rw [Option.mem_def.mp hbyte] at hrun
    simpa using hrun
  · intro hnil
    rw [hempty (by simpa using hnil), List.reverse_nil]

/-- The comment of a line with slashes in a row is found, and the scan goes on at its end. -/
theorem exists_comments?_line (hbytes : bytes = front ++ (line ++ rest)) (hfeed : 10 ∉ line)
    (hrest : ∀ byte ∈ rest.head?, byte = 10) (h : utf8 ['/', '/'] <:+: line) :
    ∃ ranges,
      (∀ more, comments? .line bytes (front.length + line.length) = some more →
        comments? .line bytes front.length = some (ranges :: more)) ∧
      ∀ pieces more, CutsLines (front.length + line.length + 1) pieces more →
        CutsLines front.length (line :: pieces) (ranges :: more) := by
  obtain ⟨before, slashes, lead, content, tail, hline, hbefore, htwo, hslashes, hrun, htrims,
    hempty⟩ := exists_comment_of_infix h
  have hnext := nextLine?_comment hbytes hfeed hrest hline hbefore htwo hslashes hrun htrims hempty
  refine ⟨_, fun more hmore => ?_, fun pieces more hmore =>
    .comment hline hbefore htwo hslashes hrun htrims hempty hmore⟩
  have hlength : 2 ≤ line.length := h.length_le
  have hinside : front.length + line.length ≤ bytes.length := by
    simp only [hbytes, List.length_append]
    omega
  rw [@comments?_of_some .line _ _ _ _ hnext (by omega) hinside, hmore, Option.map_some]

end

/-- The line comments behind a cursor are read off the lines in the one way. -/
theorem cutsLines_comments? {bytes front rest : List UInt8} (hbytes : bytes = front ++ rest) :
    ∃ ranges, comments? .line bytes front.length = some ranges ∧
      CutsLines front.length (rest.splitOn 10) ranges := by
  induction rest using marked_induction (10 : UInt8) generalizing front with
  | last line hline =>
    rw [List.splitOn_eq_singleton hline]
    by_cases htwo : utf8 ['/', '/'] <:+: line
    · have hend : comments? .line bytes (front.length + line.length) = some [] := by
        rw [← List.length_append, ← hbytes]
        exact comments?_of_none (nextLine?_none (List.append_nil bytes).symm (by decide))
      rw [← List.append_nil line] at hbytes
      obtain ⟨range, hcomment, hcuts⟩ := exists_comments?_line hbytes hline (by simp) htwo
      exact ⟨[range], hcomment [] hend, hcuts _ _ .nil⟩
    · exact ⟨[], comments?_of_none (nextLine?_none hbytes htwo), .skip htwo .nil⟩
  | step line rest hline ih =>
    rw [List.splitOn_append_cons_self_of_not_mem hline]
    have hsplit : bytes = front ++ line ++ [10] ++ rest := by simp [hbytes]
    have hlength : (front ++ line ++ [10]).length = front.length + line.length + 1 := by
      simp [Nat.add_assoc]
    obtain ⟨more, hmore, hcuts⟩ := ih hsplit
    rw [hlength] at hmore hcuts
    by_cases htwo : utf8 ['/', '/'] <:+: line
    · obtain ⟨range, hcomment, hcutsLine⟩ := exists_comments?_line hbytes hline (by simp) htwo
      -- Between the end of the line and the next one there is nothing but the line feed.
      have hfeed : comments? .line bytes (front.length + line.length) = some more := by
        rw [← List.length_append]
        refine @comments?_skip _ (front ++ line) [] rest _ ?_ (by decide) ?_
        · simpa only [List.nil_append, List.append_assoc] using hbytes
        · simpa using hmore
      exact ⟨range :: more, hcomment more hfeed, hcutsLine _ _ hcuts⟩
    · exact ⟨more, comments?_skip hbytes htwo hmore, .skip htwo hcuts⟩

/-! ## The comments of a text -/

/-- Scanning the bytes of a text succeeds, and yields the ranges of the comments of the text. -/
theorem scan?_utf8 (style : Style) (text : Text) (offset : Nat) :
    scan? style (utf8 text) offset = some ((scanAt text offset style).map (byteRanges text)) := by
  have hsplit := (List.take_append_drop offset (utf8 text)).symm
  have hcursor : ((utf8 text).take offset).length = min offset (byteSize text) := by
    rw [List.length_take, length_utf8]
  rw [scan?, length_utf8, ← hcursor]
  cases style with
  | line =>
    obtain ⟨ranges, hranges, hcuts⟩ := cutsLines_comments? hsplit
    rw [hcursor] at hcuts
    rw [hranges, hcuts.unique (cutsLines_scanAt text offset)]
  | block =>
    obtain ⟨ranges, hranges, hcuts⟩ := cutsBlocks_comments? hsplit
    rw [hcursor] at hcuts
    rw [hranges, hcuts.unique (cutsBlocks_scanAt text offset)]

end Stencil.Bytes
