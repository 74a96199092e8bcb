import Mathlib.Data.List.DropRight
import Stencil.Text.Whitespace

/-!
# Runs and trimming

A text splits at the end of its longest beginning, or at the start of its longest ending, of
characters of one kind. Where a text is written as such a run and a remainder, reading the run
gives the written parts back.
-/

namespace Stencil.Text

theorem drop_of_eq_append {text front back : Text} (h : text = front ++ back) :
    text.drop front.length = back := by
  rw [h, List.drop_left]

/-- What is left out between two positions stands in front of the later one. -/
theorem take_of_drop_eq_append {text front : Text} {start stop : Nat}
    (h : text.drop start = front ++ text.drop stop) : text.take stop = text.take start ++ front := by
  apply @List.append_cancel_right _ _ (text.drop stop)
  rw [List.take_append_drop, List.append_assoc, ← h, List.take_append_drop]

/-- Of two splits of a text, the later one divides what the earlier one leaves. -/
theorem exists_between {front rest before after : Text} (h : front ++ rest = before ++ after)
    (hle : front.length ≤ before.length) :
    ∃ between, before = front ++ between ∧ rest = between ++ after := by
  rcases List.append_eq_append_iff.mp h with ⟨between, hbefore, hrest⟩ | ⟨excess, hfront, hafter⟩
  · exact ⟨between, hbefore, hrest⟩
  · have hexcess : excess = [] := by
      rw [hfront, List.length_append] at hle
      exact List.length_eq_zero_iff.mp (by omega)
    subst hexcess
    rw [List.append_nil] at hfront
    exact ⟨[], by rw [hfront, List.append_nil], hafter.symm⟩

/-- A part in front that lacks a character ends before the character. -/
theorem length_le_of_not_mem {front rest before after : Text} {c : Char}
    (h : front ++ rest = before ++ c :: after) (hc : c ∉ front) : front.length ≤ before.length := by
  by_contra hlt
  obtain ⟨between, rfl, hrest⟩ := exists_between h.symm (by omega)
  cases between with
  | nil => simp at hlt
  | cons d between =>
    obtain ⟨rfl, -⟩ := List.cons.inj hrest
    exact hc (List.mem_append_right _ List.mem_cons_self)

variable {p : Char → Bool}

/-- A text of characters of one kind holds no character of another kind. -/
theorem not_mem_of_forall {text : Text} (c : Char) (h : ∀ d ∈ text, p d = true)
    (hc : p c = false) : c ∉ text := by
  intro hmem
  rw [h c hmem] at hc
  exact Bool.noConfusion hc

theorem takeWhile_run {α : Type} {p : α → Bool} {run rest : List α} (hrun : ∀ c ∈ run, p c = true)
    (hrest : ∀ c ∈ rest.head?, p c = false) : (run ++ rest).takeWhile p = run := by
  rw [List.takeWhile_append_of_pos hrun]
  cases rest with
  | nil => simp
  | cons c rest => simp [hrest c rfl]

theorem dropWhile_run {run rest : Text} (hrun : ∀ c ∈ run, p c = true)
    (hrest : ∀ c ∈ rest.head?, p c = false) : (run ++ rest).dropWhile p = rest := by
  rw [List.dropWhile_append_of_pos hrun]
  cases rest with
  | nil => rfl
  | cons c rest => simp [hrest c rfl]

theorem head?_dropWhile {text : Text} : ∀ c ∈ (text.dropWhile p).head?, p c = false := by
  intro c hc
  have h := List.head?_dropWhile_not p text
  rw [Option.mem_def.mp hc] at h
  simpa using h

/-- Trimming an ending that is written behind a body gives the body. -/
theorem trimEnd_append {body tail : Text} (htail : ∀ c ∈ tail, p c = true)
    (hbody : ∀ c ∈ body.getLast?, p c = false) : trimEnd p (body ++ tail) = body := by
  rw [trimEnd, List.reverse_append, dropWhile_run, List.reverse_reverse]
  · simpa using htail
  · simpa [List.head?_reverse] using hbody

/-- What trimming takes away is an ending whose characters are all of the kind. -/
theorem exists_eq_trimEnd_append (p : Char → Bool) (text : Text) :
    ∃ tail, text = trimEnd p text ++ tail ∧ (∀ c ∈ tail, p c = true) ∧
      ∀ c ∈ (trimEnd p text).getLast?, p c = false := by
  refine ⟨text.rtakeWhile p, List.rdropWhile_append_rtakeWhile.symm,
    fun c hc => List.mem_rtakeWhile_imp hc, ?_⟩
  rw [trimEnd, List.getLast?_reverse]
  exact head?_dropWhile

/-- The parts of a trimmed text: a beginning and an ending of the kind, and a text between them
that neither begins nor ends so. -/
theorem exists_eq_trim_append (p : Char → Bool) (text : Text) :
    ∃ tail, text = text.takeWhile p ++ trim p text ++ tail ∧ (∀ c ∈ tail, p c = true) ∧
      (∀ c ∈ (trim p text).head?, p c = false) ∧ ∀ c ∈ (trim p text).getLast?, p c = false := by
  obtain ⟨tail, hsplit, htail, hlast⟩ := exists_eq_trimEnd_append p (text.dropWhile p)
  refine ⟨tail, ?_, htail, ?_, hlast⟩
  · rw [List.append_assoc, trim, ← hsplit, List.takeWhile_append_dropWhile]
  · intro c hc
    have hhead : c ∈ (text.dropWhile p).head? := by
      rw [hsplit, List.head?_append]
      simp only [trim] at hc
      simp [Option.mem_def.mp hc]
    exact head?_dropWhile c hhead

/-- Trimming a text that is written between two runs gives the text. -/
theorem trim_append {lead body tail : Text} (hlead : ∀ c ∈ lead, p c = true)
    (htail : ∀ c ∈ tail, p c = true) (hhead : ∀ c ∈ body.head?, p c = false)
    (hlast : ∀ c ∈ body.getLast?, p c = false) (hbody : body ≠ []) :
    trim p (lead ++ body ++ tail) = body ∧ (lead ++ body ++ tail).takeWhile p = lead := by
  have hrest : ∀ c ∈ (body ++ tail).head?, p c = false := by
    rwa [List.head?_append_of_ne_nil _ hbody]
  rw [List.append_assoc, trim, dropWhile_run hlead hrest, takeWhile_run hlead hrest,
    trimEnd_append htail hlast]
  exact ⟨rfl, rfl⟩

/-- Nothing is left of a text exactly if it holds nothing but what is trimmed off. -/
theorem trim_eq_nil_iff {p : Char → Bool} {text : Text} :
    trim p text = [] ↔ ∀ c ∈ text, p c = true := by
  constructor
  · intro h
    obtain ⟨tail, htext, htail, -⟩ := exists_eq_trim_append p text
    rw [h, List.append_nil] at htext
    rw [htext]
    exact List.forall_mem_append.mpr ⟨fun c hc => List.mem_takeWhile_imp hc, htail⟩
  · intro h
    rw [trim, List.dropWhile_eq_nil_iff.mpr h]
    rfl

/-! ## Trimmed lists -/

/-- Items split into a run of the kind `front`, a run of the kind `back` at the end, and a content
between them that neither begins with an item of the one kind nor ends with one of the other. -/
structure Trims {α : Type} (front back : α → Bool) (lead content trail : List α) : Prop where
  lead : ∀ item ∈ lead, front item = true
  trail : ∀ item ∈ trail, back item = true
  head : ∀ item ∈ content.head?, front item = false
  last : ∀ item ∈ content.getLast?, back item = false

namespace Trims

variable {α : Type} {front back : α → Bool} {lead content trail : List α}

/-- Nothing is left exactly of items that may all stand at the end. -/
theorem eq_nil_iff (hsub : ∀ item, front item = true → back item = true)
    (h : Trims front back lead content trail) :
    content = [] ↔ ∀ item ∈ lead ++ content ++ trail, back item = true := by
  constructor
  · rintro rfl item hmem
    rw [List.append_nil] at hmem
    rcases List.mem_append.mp hmem with hmem | hmem
    · exact hsub item (h.lead item hmem)
    · exact h.trail item hmem
  · intro hall
    by_contra hne
    have hlast : content.getLast hne ∈ content.getLast? := List.getLast?_eq_some_getLast hne
    have hback := hall (content.getLast hne) (by simp)
    rw [h.last _ hlast] at hback
    exact Bool.false_ne_true hback

/-- The run in front of a content is the longest one. -/
theorem takeWhile_eq (h : Trims front back lead content trail) (hne : content ≠ []) :
    (lead ++ content ++ trail).takeWhile front = lead := by
  rw [List.append_assoc]
  apply takeWhile_run h.lead
  rw [List.head?_append_of_ne_nil _ hne]
  exact h.head

theorem reverse (h : Trims front back lead content trail) :
    Trims back front trail.reverse content.reverse lead.reverse where
  lead := by simpa using h.trail
  trail := by simpa using h.lead
  head := by simpa using h.last
  last := by simpa using h.head

/-- Where a content is left there is one way to trim, and otherwise the runs have to be told apart
in some other way. -/
theorem unique (hsub : ∀ item, front item = true → back item = true)
    {lead' content' trail' : List α} (h : Trims front back lead content trail)
    (h' : Trims front back lead' content' trail')
    (heq : lead ++ content ++ trail = lead' ++ content' ++ trail')
    (hnil : content = [] → content' = [] → lead = lead') :
    lead = lead' ∧ content = content' ∧ trail = trail' := by
  have hempty : content = [] ↔ content' = [] := by
    rw [h.eq_nil_iff hsub, h'.eq_nil_iff hsub, heq]
  by_cases hcontent : content = []
  · have hcontent' := hempty.mp hcontent
    have hlead := hnil hcontent hcontent'
    subst hcontent hcontent' hlead
    exact ⟨rfl, rfl, List.append_cancel_left heq⟩
  · have hcontent' := mt hempty.mpr hcontent
    have hlead : lead = lead' := by
      rw [← h.takeWhile_eq hcontent, ← h'.takeWhile_eq hcontent', heq]
    have htrail : trail.reverse = trail'.reverse := by
      rw [← h.reverse.takeWhile_eq (by simpa using hcontent),
        ← h'.reverse.takeWhile_eq (by simpa using hcontent')]
      simpa using congrArg (fun items => items.reverse.takeWhile back) heq
    rw [List.reverse_inj] at htrail
    subst hlead htrail
    exact ⟨rfl, List.append_cancel_left (List.append_cancel_right heq), rfl⟩

end Trims

/-- Items can be trimmed. Where the kind at the end is also one in front, the run in front is all of
what is trimmed off to nothing. -/
theorem exists_trims {α : Type} {front back : α → Bool}
    (hsub : ∀ item, back item = true → front item = true) (items : List α) :
    ∃ lead content trail, items = lead ++ content ++ trail ∧ Trims front back lead content trail ∧
      (content = [] → trail = []) := by
  obtain ⟨behind, hbehind⟩ : ∃ behind, items.dropWhile front = behind := ⟨_, rfl⟩
  have hsplit := List.takeWhile_append_dropWhile (p := front) (l := items)
  have hends := List.rdropWhile_append_rtakeWhile (p := back) (l := behind)
  have hhead : ∀ item ∈ behind.head?, front item = false := by
    intro item hitem
    have hnot := List.head?_dropWhile_not front items
    rw [hbehind, Option.mem_def.mp hitem] at hnot
    simpa using hnot
  have htrims : Trims front back (items.takeWhile front) (behind.rdropWhile back)
      (behind.rtakeWhile back) := by
    refine ⟨fun item hitem => List.mem_takeWhile_imp hitem,
      fun item hitem => List.mem_rtakeWhile_imp hitem, fun item hitem => ?_, fun item hitem => ?_⟩
    · obtain ⟨more, hmore⟩ := List.rdropWhile_prefix back behind
      apply hhead
      rw [← hmore, List.head?_append, Option.mem_def.mp hitem]
      rfl
    · have hne : behind.rdropWhile back ≠ [] := by
        rintro hnil
        simp [hnil] at hitem
      obtain rfl : (behind.rdropWhile back).getLast hne = item := by
        simpa [List.getLast?_eq_some_getLast hne] using hitem
      simpa using List.rdropWhile_last_not back behind hne
  refine ⟨_, _, _, ?_, htrims, fun hnil => ?_⟩
  · rw [List.append_assoc, hends, ← hbehind, hsplit]
  · cases behind with
    | nil => rfl
    | cons item behind =>
      have hback := List.rdropWhile_eq_nil_iff.mp hnil item List.mem_cons_self
      exact absurd (hhead item rfl) (by simp [hsub item hback])

end Stencil.Text
