import Mathlib.Data.Nat.Notation
import Mathlib.Data.List.Basic

/-!
# Codes with padding

A code writes a message, a list of tokens, as a list of symbols (`encodeAll`). Some tokens are pads,
written as a number of zeros, and no other token starts with a zero. A token is readable when it can
be told from every other token that is not a pad, whatever follows (`Readable`).

A message is therefore known from its symbols up to its pads, as long as the other tokens are
readable: when the symbols of a message start with those of a known message, the message without its
pads starts with the known one without its pads, and the rest of the symbols is what remains of the
message (`decode_append`). The remainder of a pad that is longer than a known one is again a pad.
-/

set_option autoImplicit false
set_option relaxedAutoImplicit false

namespace SealedBid

/-- A code with pads. -/
structure PaddedCode (Token Symbol : Type) where
  encode : Token → List Symbol
  zero : Symbol
  /-- The pad of a length. -/
  pad : ℕ → Token
  /-- The length of a pad; none for another token. -/
  padLength : Token → Option ℕ
  /-- The tokens that a message may have. -/
  Valid : Token → Prop
  valid_pad : ∀ n, Valid (pad n)
  padLength_pad : ∀ n, padLength (pad n) = some n
  encode_pad : ∀ {token n}, padLength token = some n → encode token = List.replicate n zero
  encode_cons : ∀ {token}, Valid token → padLength token = none →
    ∃ head tail, encode token = head :: tail ∧ head ≠ zero

namespace PaddedCode

variable {Token Symbol : Type} (code : PaddedCode Token Symbol)

/-- The symbols of a message. -/
def encodeAll (message : List Token) : List Symbol := message.flatMap code.encode

/-- A message without its pads. -/
def strip (message : List Token) : List Token :=
  message.filter fun token ↦ (code.padLength token).isNone

/-- Every token of a message is valid. -/
def ValidAll (message : List Token) : Prop := ∀ token ∈ message, code.Valid token

/-- A token that can be told from every other valid token, whatever follows. -/
structure Readable (token : Token) : Prop where
  padLength_eq : code.padLength token = none
  valid : code.Valid token
  of_append : ∀ ⦃other rest left⦄, code.Valid other → code.padLength other = none →
    code.encode other ++ left = code.encode token ++ rest → other = token ∧ left = rest

variable {code}

theorem encodeAll_cons (token : Token) (message : List Token) :
    code.encodeAll (token :: message) = code.encode token ++ code.encodeAll message :=
  List.flatMap_cons

@[simp] theorem encodeAll_append (first second : List Token) :
    code.encodeAll (first ++ second) = code.encodeAll first ++ code.encodeAll second :=
  List.flatMap_append

theorem strip_append (first second : List Token) :
    code.strip (first ++ second) = code.strip first ++ code.strip second :=
  List.filter_append first second

theorem strip_cons_of_pad {token : Token} {n : ℕ} (h : code.padLength token = some n)
    (message : List Token) : code.strip (token :: message) = code.strip message :=
  List.filter_cons_of_neg (by simp [h])

theorem strip_cons_of_not_pad {token : Token} (h : code.padLength token = none)
    (message : List Token) : code.strip (token :: message) = token :: code.strip message :=
  List.filter_cons_of_pos (by simp [h])

/-- Pads at the start of a message, up to a number of zeros, can be taken off. -/
theorem drop_zeros {message : List Token} {n : ℕ} {rest : List Symbol}
    (hvalid : code.ValidAll message)
    (h : code.encodeAll message = List.replicate n code.zero ++ rest) :
    ∃ left, code.ValidAll left ∧ code.strip message = code.strip left ∧
      code.encodeAll left = rest := by
  induction message generalizing n with
  | nil =>
    have hrest := List.append_eq_nil_iff.mp h.symm
    exact ⟨[], hvalid, rfl, hrest.2.symm⟩
  | cons token message ih =>
    obtain ⟨htoken, hmessage⟩ := List.forall_mem_cons.mp hvalid
    rw [encodeAll_cons] at h
    cases hpad : code.padLength token with
    | none =>
      -- a token that is not a pad does not start with a zero
      obtain ⟨head, tail, hencode, hhead⟩ := code.encode_cons htoken hpad
      cases n with
      | zero => exact ⟨token :: message, hvalid, rfl, by rw [encodeAll_cons, h]; rfl⟩
      | succ n =>
        rw [hencode, List.replicate_succ, List.cons_append, List.cons_append] at h
        exact absurd (List.cons.inj h).1 hhead
    | some k =>
      rw [code.encode_pad hpad] at h
      rw [strip_cons_of_pad hpad]
      obtain hle | hlt := Nat.le_total k n
      · obtain ⟨extra, rfl⟩ := Nat.exists_eq_add_of_le hle
        rw [List.replicate_add, List.append_assoc, List.append_cancel_left_eq] at h
        exact ih hmessage h
      · obtain ⟨extra, rfl⟩ := Nat.exists_eq_add_of_le hlt
        rw [List.replicate_add, List.append_assoc, List.append_cancel_left_eq] at h
        refine ⟨code.pad extra :: message, ?_, ?_, ?_⟩
        · exact List.forall_mem_cons.mpr ⟨code.valid_pad extra, hmessage⟩
        · rw [strip_cons_of_pad (code.padLength_pad extra)]
        · rw [encodeAll_cons, code.encode_pad (code.padLength_pad extra), h]

/-- A message whose symbols do not start with a zero starts, after its pads, with a token. -/
theorem read_head {message : List Token} {head : Symbol} {rest : List Symbol}
    (hvalid : code.ValidAll message) (hhead : head ≠ code.zero)
    (h : code.encodeAll message = head :: rest) :
    ∃ token left, code.Valid token ∧ code.padLength token = none ∧ code.ValidAll left ∧
      code.strip message = token :: code.strip left ∧
        code.encode token ++ code.encodeAll left = head :: rest := by
  induction message with
  | nil => cases h
  | cons token message ih =>
    obtain ⟨htoken, hmessage⟩ := List.forall_mem_cons.mp hvalid
    rw [encodeAll_cons] at h
    cases hpad : code.padLength token with
    | none =>
      exact ⟨token, message, htoken, hpad, hmessage, strip_cons_of_not_pad hpad _, h⟩
    | some k =>
      rw [code.encode_pad hpad] at h
      rw [strip_cons_of_pad hpad]
      cases k with
      | zero => exact ih hmessage h
      | succ k => exact absurd (List.cons.inj h).1.symm hhead

/-- A message whose symbols start with those of a readable token starts, after its pads, with that
token. -/
theorem read_token {message : List Token} {token : Token} {rest : List Symbol}
    (hvalid : code.ValidAll message) (htoken : code.Readable token)
    (h : code.encodeAll message = code.encode token ++ rest) :
    ∃ left, code.ValidAll left ∧ code.strip message = token :: code.strip left ∧
      code.encodeAll left = rest := by
  obtain ⟨head, tail, hencode, hhead⟩ := code.encode_cons htoken.valid htoken.padLength_eq
  rw [hencode, List.cons_append] at h
  obtain ⟨other, left, hother, hpad, hleft, hstrip, hread⟩ := read_head hvalid hhead h
  rw [← List.cons_append, ← hencode] at hread
  obtain ⟨rfl, hrest⟩ := htoken.of_append hother hpad hread
  exact ⟨left, hleft, hstrip, hrest⟩

/-- **A message is known from its symbols up to its pads.** Assumes: the tokens of the known message
are pads or readable. -/
theorem decode_append {message known : List Token} {rest : List Symbol}
    (hvalid : code.ValidAll message)
    (hknown : ∀ token ∈ known, code.padLength token = none → code.Readable token)
    (h : code.encodeAll message = code.encodeAll known ++ rest) :
    ∃ left, code.ValidAll left ∧ code.strip message = code.strip known ++ code.strip left ∧
      code.encodeAll left = rest := by
  induction known generalizing message with
  | nil => exact ⟨message, hvalid, rfl, h⟩
  | cons token known ih =>
    obtain ⟨htoken, hrest⟩ := List.forall_mem_cons.mp hknown
    rw [encodeAll_cons, List.append_assoc] at h
    cases hpad : code.padLength token with
    | none =>
      obtain ⟨middle, hmiddle, hstrip, hsymbols⟩ := read_token hvalid (htoken hpad) h
      obtain ⟨left, hleft, hstrip', hsymbols'⟩ := ih hmiddle hrest hsymbols
      refine ⟨left, hleft, ?_, hsymbols'⟩
      rw [hstrip, hstrip', strip_cons_of_not_pad hpad, List.cons_append]
    | some n =>
      rw [code.encode_pad hpad] at h
      obtain ⟨middle, hmiddle, hstrip, hsymbols⟩ := drop_zeros hvalid h
      obtain ⟨left, hleft, hstrip', hsymbols'⟩ := ih hmiddle hrest hsymbols
      exact ⟨left, hleft, by rw [hstrip, hstrip', strip_cons_of_pad hpad], hsymbols'⟩

/-- A message with the symbols of a known message is that message, up to pads. Assumes: the tokens
of the known message are pads or readable. -/
theorem decode {message known : List Token} (hvalid : code.ValidAll message)
    (hknown : ∀ token ∈ known, code.padLength token = none → code.Readable token)
    (h : code.encodeAll message = code.encodeAll known) :
    code.strip message = code.strip known := by
  rw [← List.append_nil (code.encodeAll known)] at h
  obtain ⟨left, hleft, hstrip, hsymbols⟩ := decode_append hvalid hknown h
  -- nothing but pads is left
  have hpads : code.strip left = [] := by
    refine List.filter_eq_nil_iff.mpr fun token htoken hpad ↦ ?_
    rw [Option.isNone_iff_eq_none] at hpad
    obtain ⟨head, tail, hencode, -⟩ := code.encode_cons (hleft token htoken) hpad
    have hnil := List.flatMap_eq_nil_iff.mp hsymbols token htoken
    rw [hencode] at hnil
    cases hnil
  rw [hstrip, hpads, List.append_nil]

end PaddedCode

end SealedBid
