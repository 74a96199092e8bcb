import Mathlib
import Stencil.Proofs.Text.Search
import Stencil.Text.Offset
import Stencil.Text.Utf8

/-!
# Texts as bytes

A text is written as UTF-8, character by character. A byte tells whether it begins a character or
continues one, and the byte that begins a character tells how many follow. So the bytes of one text
occur among those of another only where the text itself occurs, and a search over the bytes finds
what a search over the characters does.
-/

namespace Stencil.Text

/-- The byte continues a character. -/
def ContinuesChar (byte : UInt8) : Prop := 128 ≤ byte.toNat ∧ byte.toNat < 192

/-- How many bytes a character takes behind the byte that it begins with. -/
def bytesBehind (byte : UInt8) : Nat :=
  if byte.toNat < 192 then 0 else if byte.toNat < 224 then 1 else if byte.toNat < 240 then 2 else 3

@[simp] theorem utf8_nil : utf8 [] = [] := rfl

theorem utf8_cons (c : Char) (text : Text) :
    utf8 (c :: text) = String.utf8EncodeChar c ++ utf8 text := List.flatMap_cons

@[simp] theorem utf8_append (left right : Text) : utf8 (left ++ right) = utf8 left ++ utf8 right :=
  List.flatMap_append

/-! ## One character -/

/-- The bytes that a character is written with. -/
structure Encodes (c : Char) (first : UInt8) (behind : List UInt8) : Prop where
  bytes_eq : String.utf8EncodeChar c = first :: behind
  begins : ¬ ContinuesChar first
  length_behind : behind.length = bytesBehind first
  continues : ∀ byte ∈ behind, ContinuesChar byte
  /-- Only the characters of ASCII are written with bytes of ASCII. -/
  high : 128 ≤ c.toNat → 128 ≤ first.toNat

private theorem toNat_ofNat_of_lt {n : Nat} (h : n < 256) : (UInt8.ofNat n).toNat = n := by
  rw [UInt8.toNat_ofNat', Nat.mod_eq_of_lt h]

private theorem continuesChar_ofNat (n : Nat) : ContinuesChar (UInt8.ofNat (n % 64 + 128)) := by
  rw [ContinuesChar, toNat_ofNat_of_lt (by omega)]
  omega

private theorem Encodes.ofNat {c : Char} {n : Nat} {behind : List UInt8}
    (hbytes : String.utf8EncodeChar c = UInt8.ofNat n :: behind) (hn : n < 256)
    (hlength : behind.length =
      if n < 192 then 0 else if n < 224 then 1 else if n < 240 then 2 else 3)
    (hbegins : n = c.toNat ∧ n < 128 ∨ 192 ≤ n) (hbehind : ∀ byte ∈ behind, ContinuesChar byte) :
    Encodes c (UInt8.ofNat n) behind := by
  have hfirst := toNat_ofNat_of_lt hn
  refine ⟨hbytes, ?_, ?_, hbehind, ?_⟩
  · rw [ContinuesChar, hfirst]
    omega
  · rw [hlength, bytesBehind, hfirst]
  · rw [hfirst]
    omega

/-- Every character is written with a first byte and as many bytes behind it as that byte says. -/
theorem exists_encodes (c : Char) : ∃ first behind, Encodes c first behind := by
  by_cases hone : c.toNat ≤ 127
  · have hbytes : String.utf8EncodeChar c = [UInt8.ofNat c.toNat] := if_pos hone
    refine ⟨_, _, .ofNat hbytes (by omega) ?_ (Or.inl ⟨rfl, by omega⟩) (List.forall_mem_nil _)⟩
    rw [if_pos (by omega), List.length_nil]
  by_cases htwo : c.toNat ≤ 2047
  · have hbytes : String.utf8EncodeChar c = [UInt8.ofNat (c.toNat / 64 % 32 + 192),
        UInt8.ofNat (c.toNat % 64 + 128)] := (if_neg hone).trans (if_pos htwo)
    refine ⟨_, _, .ofNat hbytes (by omega) ?_ (Or.inr (by omega)) ?_⟩
    · rw [if_neg (by omega), if_pos (by omega)]
      rfl
    · simp only [List.forall_mem_cons, continuesChar_ofNat, List.not_mem_nil, false_implies,
        implies_true, and_self]
  by_cases hthree : c.toNat ≤ 65535
  · have hbytes : String.utf8EncodeChar c = [UInt8.ofNat (c.toNat / 4096 % 16 + 224),
        UInt8.ofNat (c.toNat / 64 % 64 + 128), UInt8.ofNat (c.toNat % 64 + 128)] :=
      (if_neg hone).trans ((if_neg htwo).trans (if_pos hthree))
    refine ⟨_, _, .ofNat hbytes (by omega) ?_ (Or.inr (by omega)) ?_⟩
    · rw [if_neg (by omega), if_neg (by omega), if_pos (by omega)]
      rfl
    · simp only [List.forall_mem_cons, continuesChar_ofNat, List.not_mem_nil, false_implies,
        implies_true, and_self]
  · have hbytes : String.utf8EncodeChar c = [UInt8.ofNat (c.toNat / 262144 % 8 + 240),
        UInt8.ofNat (c.toNat / 4096 % 64 + 128), UInt8.ofNat (c.toNat / 64 % 64 + 128),
        UInt8.ofNat (c.toNat % 64 + 128)] :=
      (if_neg hone).trans ((if_neg htwo).trans (if_neg hthree))
    refine ⟨_, _, .ofNat hbytes (by omega) ?_ (Or.inr (by omega)) ?_⟩
    · rw [if_neg (by omega), if_neg (by omega), if_neg (by omega)]
      rfl
    · simp only [List.forall_mem_cons, continuesChar_ofNat, List.not_mem_nil, false_implies,
        implies_true, and_self]

/-- A character is read back from its bytes, whatever follows them. -/
theorem utf8EncodeChar_append_inj {c d : Char} {left right : List UInt8}
    (h : String.utf8EncodeChar c ++ left = String.utf8EncodeChar d ++ right) :
    c = d ∧ left = right := by
  have hdecoded := congrArg (fun bytes => (List.toByteArray bytes).utf8DecodeChar? 0) h
  simp only [List.toByteArray_append, ByteArray.utf8DecodeChar?_utf8EncodeChar_append,
    Option.some.injEq] at hdecoded
  subst hdecoded
  exact ⟨rfl, List.append_cancel_left h⟩

theorem isAlphanum_of_le {c : Char} (h : 128 ≤ c.toNat) : c.isAlphanum = false := by
  have hval : 128 ≤ c.val.toNat := h
  simp only [Char.isAlphanum, Char.isAlpha, Char.isUpper, Char.isLower, Char.isDigit,
    Bool.or_eq_false_iff, Bool.and_eq_false_iff, decide_eq_false_iff_not, ge_iff_le,
    UInt32.le_iff_toNat_le, Char.reduceVal, UInt32.reduceToNat]
  omega

theorem toNat_ofUInt8 (byte : UInt8) : (Char.ofUInt8 byte).toNat = byte.toNat := by
  rw [Char.ofUInt8, Char.toNat, UInt8.toNat_toUInt32]

/-- A character of ASCII is its only byte, and no byte of another character is one of ASCII. -/
theorem ofUInt8_eq_or_high {c : Char} {byte : UInt8} (h : byte ∈ String.utf8EncodeChar c) :
    Char.ofUInt8 byte = c ∨ 128 ≤ byte.toNat ∧ 128 ≤ c.toNat := by
  by_cases hc : c.toNat ≤ 127
  · have hbytes : String.utf8EncodeChar c = [UInt8.ofNat c.toNat] := if_pos hc
    rw [hbytes, List.mem_singleton] at h
    have hbyte : byte.toNat = c.toNat := by rw [h, toNat_ofNat_of_lt (by omega)]
    exact Or.inl (Char.toNat_inj.mp ((toNat_ofUInt8 byte).trans hbyte))
  · have hhigh : 128 ≤ c.toNat := by omega
    obtain ⟨first, behind, hencodes⟩ := exists_encodes c
    rw [hencodes.bytes_eq] at h
    rcases List.mem_cons.mp h with rfl | hmem
    · exact Or.inr ⟨hencodes.high hhigh, hhigh⟩
    · exact Or.inr ⟨(hencodes.continues byte hmem).1, hhigh⟩

/-- Whether a byte is a character of ASCII of some kind. -/
def onByte (p : Char → Bool) (byte : UInt8) : Bool := p (Char.ofUInt8 byte)

/-- Each byte of a character is of a kind of ASCII exactly if the character is. -/
theorem onByte_eq {p : Char → Bool} (hp : ∀ c, 128 ≤ c.toNat → p c = false) {c : Char}
    {byte : UInt8} (h : byte ∈ String.utf8EncodeChar c) : onByte p byte = p c := by
  rw [onByte]
  rcases ofUInt8_eq_or_high h with heq | ⟨hbyte, hhigh⟩
  · rw [heq]
  · rw [hp c hhigh, hp]
    rwa [toNat_ofUInt8]

theorem isAlphanum_ofUInt8 {c : Char} {byte : UInt8} (h : byte ∈ String.utf8EncodeChar c) :
    (Char.ofUInt8 byte).isAlphanum = c.isAlphanum :=
  onByte_eq (fun _ => isAlphanum_of_le) h

/-! ## Texts -/

theorem length_utf8 (text : Text) : (utf8 text).length = byteSize text := by
  induction text with
  | nil => rfl
  | cons c rest ih =>
    rw [utf8_cons, List.length_append, ih, String.length_utf8EncodeChar, byteSize_cons]

theorem utf8_ne_nil {text : Text} (h : text ≠ []) : utf8 text ≠ [] := by
  obtain ⟨c, rest, rfl⟩ := List.exists_cons_of_ne_nil h
  obtain ⟨first, behind, hencodes⟩ := exists_encodes c
  rw [utf8_cons, hencodes.bytes_eq]
  exact List.cons_ne_nil _ _

/-- Bytes are decoded exactly if they are those of a text. -/
theorem ofUtf8?_eq_some_iff {bytes : List UInt8} {text : Text} :
    ofUtf8? bytes = some text ↔ utf8 text = bytes := by
  rw [ofUtf8?, String.fromUTF8?]
  constructor
  · intro h
    split at h
    · next hvalid =>
      have hstring : String.ofList text = String.fromUTF8 bytes.toByteArray hvalid := by
        rw [← Option.some.inj h, String.ofList_toList]
      have hbytes : (utf8 text).toByteArray = bytes.toByteArray :=
        congrArg String.toByteArray hstring
      exact List.toByteArray_inj.mp hbytes
    · exact absurd h (by simp)
  · rintro rfl
    have hvalid : (utf8 text).toByteArray.IsValidUTF8 := ⟨text, rfl⟩
    have hstring : String.fromUTF8 _ hvalid = String.ofList text := rfl
    rw [dif_pos hvalid, hstring, Option.map_some, String.toList_ofList]

/-- A text splits at the byte offset of a position as it does at the position. -/
theorem utf8_eq_append (text : Text) (position : Nat) :
    utf8 text = utf8 (text.take position) ++ utf8 (text.drop position) ∧
      (utf8 (text.take position)).length = offsetOf text position := by
  rw [← utf8_append, List.take_append_drop, length_utf8]
  exact ⟨rfl, rfl⟩

theorem take_utf8 (text : Text) (position : Nat) :
    (utf8 text).take (offsetOf text position) = utf8 (text.take position) := by
  obtain ⟨hsplit, hlength⟩ := utf8_eq_append text position
  rw [hsplit, ← hlength, List.take_left]

theorem drop_utf8 (text : Text) (position : Nat) :
    (utf8 text).drop (offsetOf text position) = utf8 (text.drop position) := by
  obtain ⟨hsplit, hlength⟩ := utf8_eq_append text position
  rw [hsplit, ← hlength, List.drop_left]

/-- The bytes of one text begin those of another exactly if the text itself does. -/
theorem utf8_isPrefix_iff {left right : Text} : utf8 left <+: utf8 right ↔ left <+: right := by
  constructor
  · intro h
    induction left generalizing right with
    | nil => exact List.nil_prefix
    | cons c left ih =>
      obtain ⟨more, hmore⟩ := h
      cases right with
      | nil =>
        exact absurd (List.append_eq_nil_iff.mp hmore).1 (utf8_ne_nil (List.cons_ne_nil c left))
      | cons d right =>
        rw [utf8_cons, utf8_cons, List.append_assoc] at hmore
        obtain ⟨rfl, hrest⟩ := utf8EncodeChar_append_inj hmore
        exact List.cons_prefix_cons.mpr ⟨rfl, ih ⟨more, hrest⟩⟩
  · rintro ⟨rest, rfl⟩
    rw [utf8_append]
    exact List.prefix_append _ _

/-- No text is found inside a character. -/
theorem find?_continues_append {word : Text} {behind : List UInt8} (bytes : List UInt8)
    (nonempty : utf8 word ≠ []) (hbehind : ∀ byte ∈ behind, ContinuesChar byte) :
    find? (utf8 word) (behind ++ bytes) nonempty =
      (find? (utf8 word) bytes nonempty).map (behind.length + ·) := by
  induction behind with
  | nil => simp
  | cons byte behind ih =>
    obtain ⟨hbyte, hrest⟩ := List.forall_mem_cons.mp hbehind
    have hstart : ¬ utf8 word <+: byte :: (behind ++ bytes) := by
      cases word with
      | nil => exact absurd rfl nonempty
      | cons c word =>
        obtain ⟨first, more, hencodes⟩ := exists_encodes c
        rw [utf8_cons, hencodes.bytes_eq, List.cons_append, List.cons_prefix_cons]
        rintro ⟨rfl, -⟩
        exact hencodes.begins hbyte
    rw [List.cons_append, find?_cons,
      if_neg fun hprefix => hstart (List.isPrefixOf_iff_prefix.mp hprefix), ih hrest,
      Option.map_map]
    congr 1
    funext found
    simp only [Function.comp_apply, List.length_cons]
    omega

/-- The bytes of a word are found where the word is found. -/
theorem find?_utf8 {word : Text} (text : Text) (nonempty : word ≠ []) :
    find? (utf8 word) (utf8 text) (utf8_ne_nil nonempty) =
      (find? word text nonempty).map (offsetOf text) := by
  induction text with
  | nil => rw [utf8_nil, find?_nil, find?_nil, Option.map_none]
  | cons c rest ih =>
    obtain ⟨first, behind, hencodes⟩ := exists_encodes c
    have hbytes : utf8 (c :: rest) = first :: (behind ++ utf8 rest) := by
      rw [utf8_cons, hencodes.bytes_eq, List.cons_append]
    have hprefix : (utf8 word).isPrefixOf (first :: (behind ++ utf8 rest)) =
        word.isPrefixOf (c :: rest) := by
      rw [Bool.eq_iff_iff, List.isPrefixOf_iff_prefix, List.isPrefixOf_iff_prefix, ← hbytes,
        utf8_isPrefix_iff]
    rw [hbytes, find?_cons, find?_cons, hprefix]
    split
    · rfl
    · rw [find?_continues_append _ _ hencodes.continues, ih, Option.map_map, Option.map_map,
        Option.map_map]
      congr 1
      funext found
      have hsize : c.utf8Size = behind.length + 1 := by
        rw [← String.length_utf8EncodeChar, hencodes.bytes_eq, List.length_cons]
      simp only [Function.comp_apply, offsetOf, List.take_succ_cons, byteSize_cons, hsize]
      omega

/-- No text occurs across the end of a character. -/
theorem utf8_isInfix_append_iff {word text : Text} {behind : List UInt8} (nonempty : word ≠ [])
    (hbehind : ∀ byte ∈ behind, ContinuesChar byte) :
    utf8 word <:+: behind ++ utf8 text ↔ word <:+: text := by
  have hfind : find? (utf8 word) (behind ++ utf8 text) (utf8_ne_nil nonempty) = none ↔
      find? word text nonempty = none := by
    rw [find?_continues_append _ _ hbehind, find?_utf8 _ nonempty, Option.map_eq_none_iff,
      Option.map_eq_none_iff]
  rwa [find?_eq_none_iff, find?_eq_none_iff, not_iff_not] at hfind

/-- The bytes of one text occur among those of another exactly if the text itself does. -/
theorem utf8_isInfix_iff {word text : Text} (nonempty : word ≠ []) :
    utf8 word <:+: utf8 text ↔ word <:+: text :=
  utf8_isInfix_append_iff nonempty (List.forall_mem_nil ContinuesChar)

/-- A byte of ASCII in a text is one of its characters. -/
theorem mem_of_mem_utf8 {text : Text} {byte : UInt8} (h : byte ∈ utf8 text)
    (hbyte : byte.toNat < 128) : Char.ofUInt8 byte ∈ text := by
  obtain ⟨c, hc, hmem⟩ := List.mem_flatMap.mp h
  rcases ofUInt8_eq_or_high hmem with heq | ⟨hhigh, -⟩
  · rwa [heq]
  · omega

/-- All bytes of a text are of a kind of ASCII exactly if all its characters are. -/
theorem forall_onByte_iff {p : Char → Bool} (hp : ∀ c, 128 ≤ c.toNat → p c = false) {text : Text} :
    (∀ byte ∈ utf8 text, onByte p byte = true) ↔ ∀ c ∈ text, p c = true := by
  simp only [utf8, List.mem_flatMap]
  constructor
  · intro h c hc
    obtain ⟨first, behind, hencodes⟩ := exists_encodes c
    have hmem : first ∈ String.utf8EncodeChar c := by simp [hencodes.bytes_eq]
    rw [← onByte_eq hp hmem]
    exact h first ⟨c, hc, hmem⟩
  · rintro h byte ⟨c, hc, hmem⟩
    rw [onByte_eq hp hmem]
    exact h c hc

theorem head?_utf8 {text : Text} {byte : UInt8} (h : byte ∈ (utf8 text).head?) :
    ∃ c ∈ text.head?, byte ∈ String.utf8EncodeChar c := by
  cases text with
  | nil => simp at h
  | cons c rest =>
    obtain ⟨first, behind, hencodes⟩ := exists_encodes c
    rw [utf8_cons, hencodes.bytes_eq, List.cons_append, List.head?_cons] at h
    obtain rfl := Option.some.inj h
    exact ⟨c, rfl, by simp [hencodes.bytes_eq]⟩

theorem getLast?_utf8 {text : Text} {byte : UInt8} (h : byte ∈ (utf8 text).getLast?) :
    ∃ c ∈ text.getLast?, byte ∈ String.utf8EncodeChar c := by
  rcases List.eq_nil_or_concat' text with rfl | ⟨front, c, rfl⟩
  · simp at h
  · obtain ⟨first, behind, hencodes⟩ := exists_encodes c
    have hbytes : utf8 [c] = String.utf8EncodeChar c := by rw [utf8_cons, utf8_nil, List.append_nil]
    rw [utf8_append, hbytes, hencodes.bytes_eq,
      List.getLast?_append_of_ne_nil _ (List.cons_ne_nil _ _), ← hencodes.bytes_eq] at h
    exact ⟨c, by simp, List.mem_of_getLast? h⟩

/-! ## Offsets -/

theorem offsetOf_add (text : Text) (position more : Nat) :
    offsetOf text (position + more) =
      offsetOf text position + offsetOf (text.drop position) more := by
  rw [offsetOf, offsetOf, offsetOf, ← byteSize_append, List.take_add]

theorem offsetOf_take {text : Text} {position stop : Nat} (hle : position ≤ stop) :
    offsetOf (text.take stop) position = offsetOf text position := by
  rw [offsetOf, offsetOf, List.take_take, Nat.min_eq_left hle]

/-- The byte offset behind a character, as the byte says that the character begins with. -/
theorem offsetOf_succ {text : Text} {position : Nat} (h : position < text.length) :
    offsetOf text (position + 1) =
      offsetOf text position + 1 + (utf8 text)[offsetOf text position]?.elim 0 bytesBehind := by
  obtain ⟨first, behind, hencodes⟩ := exists_encodes text[position]
  have hdrop : text.drop position = text[position] :: text.drop (position + 1) :=
    List.drop_eq_getElem_cons h
  have hfirst : (utf8 text)[offsetOf text position]? = some first := by
    rw [← List.head?_drop, drop_utf8, hdrop, utf8_cons, hencodes.bytes_eq]
    rfl
  have hsize : offsetOf (text.drop position) 1 = behind.length + 1 := by
    rw [hdrop, offsetOf, List.take_succ_cons, List.take_zero, byteSize_cons, byteSize_nil,
      ← String.length_utf8EncodeChar, hencodes.bytes_eq, List.length_cons]
  rw [offsetOf_add, hsize, hfirst, hencodes.length_behind, Option.elim_some]
  omega

/-- An occurrence that is found takes the bytes of the word, also if it is looked for by bytes. -/
theorem find?_drop_utf8 {word text : Text} {nonempty : word ≠ []} {search distance : Nat}
    (h : find? word (text.drop search) nonempty = some distance) :
    find? (utf8 word) ((utf8 text).drop (offsetOf text search)) (utf8_ne_nil nonempty) =
        some (offsetOf (text.drop search) distance) ∧
      offsetOf text (search + distance + word.length) =
        offsetOf text (search + distance) + (utf8 word).length ∧
      search + distance < text.length := by
  have hoccurs := List.isPrefixOf_iff_prefix.mp (find?_isPrefixOf h)
  have hbound := find?_bound h
  have hword := List.length_pos_iff.mpr nonempty
  rw [List.length_drop] at hbound
  refine ⟨by rw [drop_utf8, find?_utf8 _ nonempty, h, Option.map_some], ?_, by omega⟩
  rw [offsetOf_add text (search + distance), ← List.drop_drop, length_utf8]
  conv_rhs => rw [List.prefix_iff_eq_take.mp hoccurs]
  rfl

/-- Behind a byte offset stand the rest of the character that it falls into, if it does, and then
the text from the next position on. -/
theorem exists_drop_utf8 (offset : Nat) (text : Text) :
    ∃ behind, (∀ byte ∈ behind, ContinuesChar byte) ∧
      (utf8 text).drop offset = behind ++ utf8 (text.drop (positionAfter offset text)) ∧
      min offset (byteSize text) + behind.length =
        byteSize (text.take (positionAfter offset text)) := by
  induction text generalizing offset with
  | nil => exact ⟨[], by simp, by simp, by simp⟩
  | cons c rest ih =>
    obtain ⟨first, more, hencodes⟩ := exists_encodes c
    have hsize : more.length + 1 = c.utf8Size := by
      rw [← String.length_utf8EncodeChar, hencodes.bytes_eq, List.length_cons]
    rw [utf8_cons, byteSize_cons, positionAfter]
    split
    · next hzero =>
      subst hzero
      exact ⟨[], by simp, by simp [utf8_cons], by simp⟩
    · next hzero =>
      obtain ⟨behind, hbehind, hdrop, hlength⟩ := ih (offset - c.utf8Size)
      rw [List.drop_append, String.length_utf8EncodeChar, List.take_succ_cons, byteSize_cons,
        List.drop_succ_cons]
      by_cases hin : offset < c.utf8Size
      · -- What is left of the character is behind its first byte.
        have hpos : positionAfter (offset - c.utf8Size) rest = 0 := by
          rw [Nat.sub_eq_zero_of_le (Nat.le_of_lt hin)]
          cases rest <;> rfl
        obtain ⟨skipped, rfl⟩ : ∃ skipped, offset = skipped + 1 :=
          Nat.exists_eq_add_one_of_ne_zero hzero
        refine ⟨more.drop skipped,
          fun byte hmem => hencodes.continues byte (List.mem_of_mem_drop hmem), ?_, ?_⟩
        · rw [hencodes.bytes_eq, List.drop_succ_cons, hpos,
            Nat.sub_eq_zero_of_le (Nat.le_of_lt hin)]
          simp
        · rw [hpos, List.length_drop, List.take_zero, byteSize_nil]
          omega
      · refine ⟨behind, hbehind, ?_, by omega⟩
        rw [hdrop, List.drop_of_length_le (by rw [String.length_utf8EncodeChar]; omega),
          List.nil_append]

end Stencil.Text
