import GraphLisp.Decimal.Limit
/-!
# Refusals of YAML texts

Why a text has no value. Most texts are no document; the other causes lie in single scalars, whose
tag or spelling promises a value that they do not have.
-/

namespace GraphLisp.Yaml

/-- Why a text has no value. -/
inductive Refusal where
  /-- The text is no document, or a tag does not fit its node. -/
  | document
  /-- A whole number in some base is not spelt right. -/
  | number (base : Nat) (text : String)
  /-- A whole number has too many digits. -/
  | tooLong (digits : Nat)
  /-- A double is not spelt right. -/
  | double (text : String)
  /-- A number that no double comes near. -/
  | overflow
  /-- There is no such moment. -/
  | moment (flaw : String)
  /-- A number without a character. -/
  | emptyNumber
  /-- A word that is no truth value. -/
  | truth
  /-- A timestamp that is not spelt right. -/
  | timestamp
  /-- A map in place of a timestamp. -/
  | mapAsTimestamp
  /-- An escape names a code point beyond the last one. -/
  | codePoint
  /-- Nodes are nested too deeply, or endlessly. -/
  | tooDeep
deriving DecidableEq

end GraphLisp.Yaml
