import Mathlib.Data.List.Basic

/-! Self-delimiting codes: a parser that takes one encoding off the front of a stream, and the
decoding of a whole stream by repeating it. -/

namespace SelfDelimiting

/-- An encoding without length fields, with the parser that finds its end. -/
structure Code (α β : Type) where
  encode : α → List β
  parse : List β → Option (α × List β)
  parse_encode : ∀ a rest, parse (encode a ++ rest) = some (a, rest)
  encode_ne_nil : ∀ a, encode a ≠ []

namespace Code
variable {α β : Type} (code : Code α β)

/-- At most `fuel` encodings, which have to use up the stream. -/
def decodeWith : ℕ → List β → Option (List α)
  | _, [] => some []
  | 0, _ :: _ => none
  | fuel + 1, b :: bs =>
    match code.parse (b :: bs) with
    | none => none
    | some (a, rest) => (decodeWith fuel rest).map (a :: ·)

/-- Every encoding takes at least one element, so the length of the stream is fuel enough. -/
def decode (bs : List β) : Option (List α) := code.decodeWith bs.length bs

theorem decodeWith_encode (as : List α) {fuel : ℕ}
    (h : (as.flatMap code.encode).length ≤ fuel) :
    code.decodeWith fuel (as.flatMap code.encode) = some as := by
  induction as generalizing fuel with
  | nil =>
    rw [List.flatMap_nil]
    cases fuel <;> rfl
  | cons a as ih =>
    obtain ⟨b, bs, hb⟩ := List.exists_cons_of_ne_nil (code.encode_ne_nil a)
    rw [List.flatMap_cons, hb, List.cons_append, List.length_cons, List.length_append] at h
    have hparse := code.parse_encode a (as.flatMap code.encode)
    rw [List.flatMap_cons]
    rw [hb, List.cons_append] at hparse ⊢
    cases fuel with
    | zero => omega
    | succ fuel =>
      have hrest : code.decodeWith fuel (as.flatMap code.encode) = some as := ih (by omega)
      simp only [decodeWith, hparse, hrest, Option.map_some]

theorem decode_encode (as : List α) : code.decode (as.flatMap code.encode) = some as :=
  code.decodeWith_encode as (Nat.le_refl _)

end Code

end SelfDelimiting
