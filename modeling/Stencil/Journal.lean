import Stencil.Document.Segment
import Stencil.Table

/-!
# Journal entries

What a run notes down while it works. An entry is a fact about the run; how entries are written and
which of them are shown is decided where a run is reported.
-/

namespace Stencil

/-- One note of a run. -/
inductive Entry where
  /-- A block was found in a document. -/
  | locatedBlock (line : Nat) (style : Style)
  | loadedTable (line columns rows : Nat)
  | ignoredBlock (line : Nat)
  /-- A template came before any table. -/
  | skippedTemplate (line : Nat)
  | rendered (input : Text) (bytes : Nat)
  | unchanged (output : Text)
  | wrote (input output : Text)
  | loadingConfig (path : Text)
  | resolvedConfig (root : Text) (found : Bool)
  deriving DecidableEq, Repr

/-- A result and the notes made on the way to it. -/
structure Noted (α : Type) where
  entries : List Entry
  value : α

namespace Noted

/-- A result without notes. -/
def silent {α : Type} (value : α) : Noted α := ⟨[], value⟩

/-- The result with other notes made before. -/
def after {α : Type} (entries : List Entry) (noted : Noted α) : Noted α :=
  ⟨entries ++ noted.entries, noted.value⟩

@[simp] theorem value_silent {α : Type} (value : α) : (silent value).value = value := rfl

@[simp] theorem value_after {α : Type} (entries : List Entry) (noted : Noted α) :
    (noted.after entries).value = noted.value := rfl

end Noted

end Stencil
