import Stencil.Config.Read
import Stencil.Proofs.Marker.Written

/-!
# Tags of a configuration

A configuration that is read from a text was checked, and the check lets only such tags pass as the
tokens of a marker know as names. So whatever the configured tag, blocks can be opened with it, with
any attributes, and closed.
-/

namespace Stencil

namespace Config

/-- The check changes nothing. -/
theorem eq_of_validate {config valid : Config} (h : config.validate = .ok valid) :
    config = valid := by
  rw [validate] at h
  split at h
  · exact absurd h (by simp)
  split at h
  · exact absurd h (by simp)
  split at h
  · exact absurd h (by simp)
  · exact Except.ok.inj h

/-- A configuration that is read has passed its check. -/
theorem validate_of_read {text : Text} {config : Config} (h : Config.read text = .ok config) :
    config.validate = .ok config := by
  rw [Config.read] at h
  split at h
  · exact absurd h (by simp)
  · next found _ =>
    cases hvalid : found.validate with
    | error fault => simp [hvalid, Except.mapError] at h
    | ok valid =>
      obtain rfl : valid = config := by simpa [hvalid, Except.mapError] using h
      rwa [eq_of_validate hvalid] at hvalid

end Config

namespace Marker

open Token

/-- Tags of a configuration can be written and are read back: with any attributes of different
names, however the characters of their values are written, an opening tag is read with just these
attributes, and the closing tag is read as one. -/
theorem read_writesTag {text : Text} {config : Config} {attributes : Attributes}
    (hconfig : Config.read text = .ok config)
    (hnames : ∀ pair ∈ attributes, isName pair.1 = true)
    (hnodup : (attributes.map Prod.fst).Nodup) :
    (∃ content, WritesTag config.tag attributes content) ∧
      (∀ content, WritesTag config.tag attributes content →
        read config.tag content = .ok (some (.opening attributes))) ∧
      read config.tag (closingTag config.tag) = .ok (some .closing) := by
  have htag : isName config.tag = true :=
    isName_of_isTagName (Config.isTagName_of_validate (Config.validate_of_read hconfig))
  refine ⟨⟨_, writesTag_openingTag config.tag attributes⟩, ?_, read_closingTag htag⟩
  intro content hwrites
  exact hwrites.read_eq htag hnames hnodup

/-- The configuration is `tag="_"`, and the tag is `<_ K='&#x00E9;"&apos;&#038;lt;'>`. -/
theorem read_writesTag_references :
    read ['_'] (['<', '_', ' ', 'K', '=', '\''] ++
        ['&', '#', 'x', '0', '0', 'E', '9', ';', '"', '&', 'a', 'p', 'o', 's', ';'] ++
        ['&', '#', '0', '3', '8', ';', 'l', 't', ';', '\'', '>']) =
      .ok (some (.opening [(['K'], ['é', '"', '\'', '&', 'l', 't', ';'])])) := by
  have hconfig : Config.read ['t', 'a', 'g', '=', '"', '_', '"'] = .ok { tag := ['_'] } := by decide +kernel
  have hend : Entity.WritesValue '\'' ['l', 't', ';'] ['l', 't', ';'] :=
    .cons (.literal (by decide) (by decide)) <| .cons (.literal (by decide) (by decide)) <|
      .cons (.literal (by decide) (by decide)) .nil
  have hvalue : Entity.WritesValue '\'' ['é', '"', '\'', '&', 'l', 't', ';']
      (['&', '#', 'x', '0', '0', 'E', '9', ';'] ++ (['"'] ++ (['&', 'a', 'p', 'o', 's', ';'] ++
        (['&', '#', '0', '3', '8', ';'] ++ ['l', 't', ';'])))) :=
    .cons (.hexadecimal ⟨2, ['E', '9'], by decide, rfl⟩) <|
      .cons (.literal (by decide) (by decide)) <|
        .cons (@Entity.WritesChar.named _ _ ['a', 'p', 'o', 's'] (by decide)) <|
          .cons (.decimal ⟨1, ['3', '8'], by decide, rfl⟩) hend
  have hattribute := @WritesAttribute.intro [' '] ['K'] [] [] _ _ '\'' (by decide) (by decide)
    isGap_nil isGap_nil (Or.inr rfl) hvalue
  exact (read_writesTag hconfig (by decide) (by decide)).2.1 _
    ⟨[_], [], .cons hattribute .nil, isGap_nil, rfl⟩

end Marker

end Stencil
