import Stencil.Text.Basic

/-!
# Searching

The first occurrence of one list inside another. The search is used on characters and on bytes,
so it is stated for any items that can be compared. An empty needle has no meaningful first
occurrence: the caller shows that the needle holds something.
-/

namespace Stencil.Text

variable {α : Type} [BEq α]

/-- The position of the first occurrence of `needle`, counting from `position`. -/
def findFrom (needle : List α) (position : Nat) : List α → Option Nat
  | [] => if needle.isPrefixOf [] then some position else none
  | item :: rest =>
    if needle.isPrefixOf (item :: rest) then some position
    else findFrom needle (position + 1) rest

/-- The number of items in front of the first occurrence of `needle`. -/
def find? (needle haystack : List α) (_nonempty : needle ≠ [] := by decide) : Option Nat :=
  findFrom needle 0 haystack

theorem findFrom_le {needle haystack : List α} {position found : Nat}
    (h : findFrom needle position haystack = some found) :
    position ≤ found ∧ found + needle.length ≤ position + haystack.length := by
  induction haystack generalizing position with
  | nil =>
    simp only [findFrom] at h
    split at h
    · next hp =>
      obtain rfl := Option.some.inj h
      cases needle with
      | nil => simp
      | cons => simp at hp
    · exact absurd h (by simp)
  | cons item rest ih =>
    simp only [findFrom] at h
    split at h
    · next hp =>
      obtain rfl := Option.some.inj h
      refine ⟨Nat.le_refl _, Nat.add_le_add_left ?_ _⟩
      exact isPrefixOf_length hp
    · have := ih h
      simp only [List.length_cons]
      omega
where
  /-- A list that begins another one is no longer than it. -/
  isPrefixOf_length {needle haystack : List α} (h : needle.isPrefixOf haystack = true) :
      needle.length ≤ haystack.length := by
    induction needle generalizing haystack with
    | nil => simp
    | cons a needle ih =>
      cases haystack with
      | nil => simp at h
      | cons b haystack =>
        simp only [List.isPrefixOf, Bool.and_eq_true] at h
        simpa using ih h.2

/-- An occurrence lies inside the text that was searched. -/
theorem find?_bound {needle haystack : List α} {nonempty : needle ≠ []} {found : Nat}
    (h : find? needle haystack nonempty = some found) :
    found + needle.length ≤ haystack.length := by
  have := (findFrom_le h).2
  omega

/-- The needle stands where it is found. -/
theorem find?_isPrefixOf {needle haystack : List α} {nonempty : needle ≠ []} {found : Nat}
    (h : find? needle haystack nonempty = some found) :
    needle.isPrefixOf (haystack.drop found) = true := by
  suffices hs : ∀ position, findFrom needle position haystack = some found →
      needle.isPrefixOf (haystack.drop (found - position)) = true from hs 0 h
  clear h
  intro position h
  induction haystack generalizing position with
  | nil =>
    simp only [findFrom] at h
    split at h
    · next hp => simpa using hp
    · exact absurd h (by simp)
  | cons item rest ih =>
    simp only [findFrom] at h
    split at h
    · next hp =>
      obtain rfl := Option.some.inj h
      simpa using hp
    · have hle := (findFrom_le h).1
      have hdrop : found - position = (found - (position + 1)) + 1 := by omega
      rw [hdrop, List.drop_succ_cons]
      exact ih (position + 1) h

end Stencil.Text
