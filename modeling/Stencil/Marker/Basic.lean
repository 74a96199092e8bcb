import Stencil.Marker.Entity
import Stencil.Marker.Token

/-!
# Markers

A comment whose whole content is a tag of the configured name is a marker: it opens or closes a
block. A content that begins like an opening tag and ends like one, but is none, is a fault;
every other content is prose.
-/

namespace Stencil

/-- The attributes of an opening tag, in the order in which they are written. -/
abbrev Attributes := List (Text × Text)

/-- What a marker comment says. -/
inductive Marker where
  | opening (attributes : Attributes)
  | closing
  deriving DecidableEq, Repr

/-- Why a content that is shaped like an opening tag is none. -/
inductive MarkerError where
  /-- A token that may not stand where it stands. -/
  | unexpected (token : Text)
  /-- An attribute that no quoted value follows. -/
  | missingValue (name : Text)
  /-- An attribute that is given a second time. -/
  | duplicate (name : Text)
  /-- A reference that names no character. -/
  | unknownEntity (entity : Text)
  deriving DecidableEq, Repr

/-- The wording of a fault. -/
def MarkerError.message : MarkerError → String
  | unexpected token => s!"unexpected `{token.string}`"
  | missingValue name => s!"attribute `{name.string}` has no quoted value"
  | duplicate name => s!"attribute `{name.string}` is given more than once"
  | unknownEntity entity => s!"unknown entity `&{entity.string};`"

namespace Marker

/-- The tokens after any whitespace. -/
def skipSpace : List Token → List Token
  | .space _ :: rest => skipSpace rest
  | tokens => tokens

theorem skipSpace_length (tokens : List Token) : (skipSpace tokens).length ≤ tokens.length := by
  fun_induction skipSpace tokens with
  | case1 run rest ih => simp only [List.length_cons]; omega
  | case2 => exact Nat.le_refl _

/-- The value of the attribute `name`: an equals sign and a quoted text, with optional whitespace. -/
def readValue (name : Text) (tokens : List Token) : Except MarkerError (Text × List Token) :=
  match skipSpace tokens with
  | .equals :: rest =>
    match skipSpace rest with
    | .quoted _ raw :: rest =>
      match Entity.decode raw with
      | .ok value => .ok (value, rest)
      | .error entity => .error (.unknownEntity entity)
    | _ => .error (.missingValue name)
  | _ => .error (.missingValue name)

theorem readValue_length {name value : Text} {tokens rest : List Token}
    (h : readValue name tokens = .ok (value, rest)) : rest.length < tokens.length := by
  have hskip := skipSpace_length tokens
  unfold readValue at h
  split at h
  · next after ha =>
    have hafter := skipSpace_length after
    rw [ha] at hskip
    split at h
    · next raw last hl =>
      rw [hl] at hafter
      simp only [List.length_cons] at hskip hafter
      split at h
      · simp only [Except.ok.injEq, Prod.mk.injEq] at h
        obtain ⟨-, rfl⟩ := h
        omega
      · exact absurd h (by simp)
    · exact absurd h (by simp)
  · exact absurd h (by simp)

/--
The attributes up to the end of the tag, after those already found. Whitespace has to precede
each name. Tokens after the tag, and a tag that never ends, make the content prose.
-/
def readAttributes (found : Attributes) (tokens : List Token) :
    Except MarkerError (Option Attributes) :=
  match _skipped : skipSpace tokens with
  | [] => .ok none
  | .closeAngle :: rest => .ok (if rest.isEmpty then some found else none)
  | .name name :: rest =>
    if (skipSpace tokens).length < tokens.length then
      match _valued : readValue name rest with
      | .error fault => .error fault
      | .ok (value, rest) =>
        if found.any (·.1 == name) then .error (.duplicate name)
        else readAttributes (found ++ [(name, value)]) rest
    else .error (.unexpected name)
  | token :: _ => .error (.unexpected token.text)
  termination_by tokens.length
  decreasing_by
    have hle := skipSpace_length tokens
    have hlt := readValue_length _valued
    rw [_skipped] at hle
    simp only [List.length_cons] at hle
    omega

/-- Whether an opening tag may go on with this token after its name. -/
def endsTagName : Option Token → Bool
  | some (.space _) | some .closeAngle => true
  | _ => false

/-- Read the content of a comment as a marker; `none` is prose. -/
def read (tag content : Text) : Except MarkerError (Option Marker) :=
  match Token.lex content with
  | .closingAngle :: .name name :: rest =>
    if name == tag && skipSpace rest == [.closeAngle] then .ok (some closing) else .ok none
  | .openAngle :: .name name :: rest =>
    if name == tag && content.getLast? == some '>' && endsTagName rest.head? then
      (readAttributes [] rest).map (·.map opening)
    else .ok none
  | _ => .ok none

end Marker

end Stencil
