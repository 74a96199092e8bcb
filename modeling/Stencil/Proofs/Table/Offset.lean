import Stencil.Proofs.Table.Fields
import Stencil.Proofs.Text.Bytes

/-!
# Cutting at offsets

The fields of a row are cut out with a counter, the offsets of the quotation marks that are still to
come, and a flag. What links the three is that no mark in front of the counter is left over, so that
the counter meets a mark exactly where the row has one, and the flag tells whether an odd number of
marks has been met. It does not matter how many items a character takes up, so the same is cut out
of the bytes of a row.
-/

namespace Stencil.Table

open Text

/-- The way the characters of a row are spelled out in items: a semicolon is one item, which no
other character is spelled with, and a quotation mark is one item too. -/
structure IsSpelling {α : Type} (spell : Char → List α) (separator : α) : Prop where
  semicolon : spell ';' = [separator]
  mark : ∃ item, spell '"' = [item]
  other : ∀ c, c ≠ ';' → separator ∉ spell c

/-! ## Offsets of marks -/

theorem length_quoteOffsets (size : Char → Nat) (offset : Nat) (previous : Option Char)
    (text : Text) :
    (quoteOffsets size offset previous text).length = (marked previous text).countP (·.2) := by
  induction text generalizing offset previous with
  | nil => rfl
  | cons c rest ih =>
    rw [quoteOffsets, marked, List.countP_cons, ← ih (offset + size c)]
    split <;> simp_all

/-- The marks that count are as many as a row has quotation marks without a backslash. -/
theorem length_quotes (row : Text) : (quotes row).length = marksIn row := by
  rw [quotes, length_quoteOffsets, countP_marked_none]

theorem le_of_mem_quoteOffsets {size : Char → Nat} {offset mark : Nat} {previous : Option Char}
    {text : Text} (h : mark ∈ quoteOffsets size offset previous text) : offset ≤ mark := by
  induction text generalizing offset previous with
  | nil => exact absurd h List.not_mem_nil
  | cons c rest ih =>
    rw [quoteOffsets] at h
    split at h
    · rcases List.mem_cons.mp h with rfl | h
      · exact Nat.le_refl _
      · exact Nat.le_of_add_right_le (ih h)
    · exact Nat.le_of_add_right_le (ih h)

section Spelling

variable {α : Type} [BEq α] [LawfulBEq α] {separator : α} {row : List α} {start offset : Nat}
  {marks : List Nat} {quoted : Bool}

/-- A mark further on has not been reached. -/
theorem head?_beq_of_lt (h : ∀ mark ∈ marks, offset < mark) :
    (marks.head? == some offset) = false := by
  rw [beq_eq_false_iff_ne]
  intro hhead
  exact Nat.lt_irrefl _ (h offset (List.mem_of_head? hhead))

/-- Items in front of the next mark that do not separate are passed over. -/
theorem piecesFrom_append {items : List α} (rest : List α) (hitems : separator ∉ items)
    (hmarks : ∀ mark ∈ marks, offset + items.length ≤ mark) :
    piecesFrom separator row start offset marks quoted (items ++ rest) =
      piecesFrom separator row start (offset + items.length) marks quoted rest := by
  induction items generalizing offset with
  | nil => rfl
  | cons item items ih =>
    obtain ⟨hitem, hitems⟩ := not_or.mp (mt List.mem_cons.mpr hitems)
    have hlength : offset + (item :: items).length = offset + 1 + items.length := by
      rw [List.length_cons]
      omega
    rw [hlength] at hmarks
    have hahead := head?_beq_of_lt fun mark hmark =>
      show offset < mark from Nat.lt_of_lt_of_le (by omega) (hmarks mark hmark)
    rw [List.cons_append, piecesFrom, hahead, beq_false_of_ne (Ne.symm hitem), hlength,
      ← ih hitems hmarks]
    rfl

/-- Cutting with a counter and the offsets of the marks cuts where a scan does that is told at each
character whether it is a mark. -/
theorem piecesFrom_eq_foldr {spell : Char → List α} (hspell : IsSpelling spell separator)
    {previous : Option Char} {front : List α} {current rest : Text}
    (hrow : row = front ++ current.flatMap spell ++ rest.flatMap spell)
    (hstart : start = front.length) (hoffset : offset = (front ++ current.flatMap spell).length) :
    piecesFrom separator row start offset
        (quoteOffsets (fun c => (spell c).length) offset previous rest) quoted
        (rest.flatMap spell) =
      (current.foldr glue (cutFields quoted (marked previous rest))).map (·.flatMap spell) := by
  induction rest generalizing previous front current start offset quoted with
  | nil =>
    rw [marked, cutFields, foldr_glue, List.append_nil]
    rw [List.flatMap_nil, List.append_nil] at hrow
    rw [List.flatMap_nil, piecesFrom, hrow, hstart, List.drop_left]
    rfl
  | cons c rest ih =>
    -- The current piece goes on with the character.
    have hgrow : ∀ quoted', piecesFrom separator row start (offset + (spell c).length)
          (quoteOffsets (fun c => (spell c).length) (offset + (spell c).length) (some c) rest)
          quoted' (rest.flatMap spell) =
        (current.foldr glue (glue c (cutFields quoted' (marked (some c) rest)))).map
          (·.flatMap spell) := by
      intro quoted'
      have hlater := @ih start (offset + (spell c).length) quoted' (some c) front (current ++ [c])
        (by simp [hrow]) hstart (by simp [hoffset, Nat.add_assoc])
      rwa [List.foldr_append] at hlater
    have hahead : ∀ mark ∈ quoteOffsets (fun c => (spell c).length) (offset + (spell c).length)
        (some c) rest, offset + (spell c).length ≤ mark := fun mark => le_of_mem_quoteOffsets
    rw [quoteOffsets, marked, cutFields, List.flatMap_cons]
    by_cases hmark : (c == '"' && previous != some '\\') = true
    · obtain ⟨item, hitem⟩ := hspell.mark
      have hc : c = '"' := eq_of_beq (Bool.and_eq_true_iff.mp hmark).1
      have hone : spell c = [item] := hc ▸ hitem
      have hnext := hgrow (!quoted)
      rw [if_pos hmark, if_pos hmark, ← hnext, hone, List.singleton_append, piecesFrom,
        List.head?_cons, beq_self_eq_true, if_pos rfl, List.tail_cons]
      rfl
    · rw [if_neg hmark, if_neg hmark]
      by_cases hc : c = ';'
      · subst hc
        rw [hspell.semicolon, List.length_singleton] at hahead hgrow
        rw [hspell.semicolon, List.length_singleton, List.singleton_append, piecesFrom,
          head?_beq_of_lt hahead]
        cases quoted with
        | true => simpa using hgrow true
        | false =>
          have hpiece : (row.take offset).drop start = current.flatMap spell := by
            rw [hrow, List.append_assoc, ← List.append_assoc front, hoffset, List.take_left,
              hstart, List.drop_left]
          have hnext : offset + 1 = (front ++ current.flatMap spell ++ [separator]).length := by
            rw [List.length_append, ← hoffset, List.length_singleton]
          have hempty : offset + 1 =
              (front ++ current.flatMap spell ++ [separator] ++ [].flatMap spell).length := by
            rw [List.flatMap_nil, List.append_nil, hnext]
          have hrest := @ih (offset + 1) (offset + 1) false (some ';') _ []
            (by simp [hrow, hspell.semicolon]) hnext hempty
          rw [List.foldr_nil] at hrest
          simp [hpiece, hrest, foldr_glue]
      · have hother : (c == ';' && !quoted) = false := by
          rw [beq_false_of_ne hc, Bool.false_and]
        rw [piecesFrom_append _ (hspell.other c hc) hahead, hother]
        exact hgrow quoted

/-- A row is cut at the semicolons that an even number of marks precedes, however its characters
are spelled out. -/
theorem piecesFrom_flatMap {spell : Char → List α} (hspell : IsSpelling spell separator)
    (row : Text) :
    piecesFrom separator (row.flatMap spell) 0 0
        (quoteOffsets (fun c => (spell c).length) 0 none row) false (row.flatMap spell) =
      (cutFields false (marked none row)).map (·.flatMap spell) :=
  @piecesFrom_eq_foldr α _ _ separator _ 0 0 false spell hspell none [] [] row rfl rfl rfl

end Spelling

theorem piecesFrom_eq_cutFields (row : Text) :
    piecesFrom ';' row 0 0 (quotes row) false row = cutFields false (marked none row) := by
  have hspell : IsSpelling (fun c => [c]) ';' :=
    ⟨rfl, ⟨'"', rfl⟩, fun c hc hmem => hc (List.mem_singleton.mp hmem).symm⟩
  have hpieces := piecesFrom_flatMap hspell row
  simp only [List.flatMap_singleton', List.map_id'] at hpieces
  exact hpieces

theorem fields_eq_cutFields (row : Text) :
    fields row = (cutFields false (marked none row)).map (trim isBlank) := by
  rw [fields, piecesFrom_eq_cutFields]

/-! ## Bytes -/

theorem isSpelling_utf8 : IsSpelling String.utf8EncodeChar (UInt8.ofNat 59) := by
  refine ⟨rfl, ⟨_, rfl⟩, fun c hc hmem => ?_⟩
  rcases ofUInt8_eq_or_high hmem with heq | ⟨hhigh, -⟩
  · exact hc (heq.symm.trans (by decide))
  · exact absurd hhigh (by decide)

/-- The search over the bytes of a row cuts out the bytes of its pieces. -/
theorem piecesFrom_utf8 (row : Text) :
    piecesFrom (UInt8.ofNat 59) (utf8 row) 0 0 (quoteOffsets Char.utf8Size 0 none row) false
        (utf8 row) =
      (piecesFrom ';' row 0 0 (quotes row) false row).map utf8 := by
  have hsize : (fun c => (String.utf8EncodeChar c).length) = Char.utf8Size :=
    funext String.length_utf8EncodeChar
  have hpieces := piecesFrom_flatMap isSpelling_utf8 row
  rw [hsize] at hpieces
  rw [piecesFrom_eq_cutFields]
  exact hpieces

end Stencil.Table
