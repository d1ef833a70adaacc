import SealedBid.Compiled.Circuits
import SealedBid.Foundation.PaddedCode

/-!
# Transcripts as lists of field elements

A proof is about field elements, so the transcript of a call is written as a list of them. An
instruction is its code followed by its data; an aligned value is the number of its atoms, their
lengths and their limbs, at most 31 bytes to a field element (`limbs`); `noop` is zeros, one for
each place it fills (`Op.fields`). The declarations of the intermediate representation name these
elements one by one.

Transcripts in this form are a code with pads (`fieldCode`): every instruction of the circuits can
be told from every other instruction (`readable_of_isSimple`), so a transcript is known from its
field elements up to `noop` instructions. `Op.WellFormed` says which instructions a transcript may
have: atoms have bytes, and every `popeq` has its result.

Scope. The codes are those that the `.zkir` files declare for the instructions of `index.js`. How
the other instructions and maps and arrays are written is not fixed here (`UndeclaredFields`): no
circuit has such an instruction or pushes such a value.
-/

set_option autoImplicit false
set_option relaxedAutoImplicit false

namespace SealedBid.Compiled

/-! ### Aligned values -/

/-- The limbs of an integer, the highest first: 31 bytes in each but the highest. -/
def limbs : ℕ → ℕ → List ℕ
  | 0, _ => []
  | 1, value => [value]
  | n + 2, value => limbs (n + 1) (value / 2 ^ 248) ++ [value % 2 ^ 248]

/-- The limbs of an atom. -/
def Atom.limbs (atom : Atom) : List ℕ := Compiled.limbs ((atom.length + 30) / 31) atom.value

/-- The field elements of an aligned value. -/
def valueFields (value : AlignedValue) : List ℕ :=
  value.length :: (value.map Atom.length ++ value.flatMap Atom.limbs)

/-- The atoms of an aligned value have bytes. -/
def AlignedValue.HasBytes (value : AlignedValue) : Prop := ∀ atom ∈ value, 0 < atom.length

theorem limbs_length (n value : ℕ) : (limbs n value).length = n := by
  induction n, value using limbs.induct with
  | case1 => rfl
  | case2 => rfl
  | case3 value n ih => rw [limbs, List.length_append, ih, List.length_singleton]

theorem limbs_inj {n x y : ℕ} (h : limbs (n + 1) x = limbs (n + 1) y) : x = y := by
  induction n generalizing x y with
  | zero => simpa [limbs] using h
  | succ n ih =>
    rw [limbs, limbs] at h
    obtain ⟨hhigh, hlow⟩ := List.append_inj' h rfl
    have hdiv := ih hhigh
    rw [List.cons.injEq] at hlow
    rw [← Nat.div_add_mod x (2 ^ 248), ← Nat.div_add_mod y (2 ^ 248), hdiv, hlow.1]

theorem Atom.eq_of_limbs {atom other : Atom} (hlength : atom.length = other.length)
    (hbytes : 0 < atom.length) (h : atom.limbs = other.limbs) : atom = other := by
  obtain ⟨length, x⟩ := atom
  obtain ⟨_, y⟩ := other
  obtain rfl : length = _ := hlength
  obtain ⟨n, hn⟩ : ∃ n, (length + 30) / 31 = n + 1 :=
    Nat.exists_eq_succ_of_ne_zero (by simp only at hbytes; omega)
  rw [Atom.limbs, Atom.limbs, hn] at h
  exact congrArg (Atom.mk length) (limbs_inj h)

/-- The limbs of atoms of known lengths can be read off, whatever follows. -/
theorem flatMap_limbs_append {value other : AlignedValue} {rest left : List ℕ}
    (hbytes : AlignedValue.HasBytes value)
    (hlengths : value.map Atom.length = other.map Atom.length)
    (h : value.flatMap Atom.limbs ++ left = other.flatMap Atom.limbs ++ rest) :
    value = other ∧ left = rest := by
  induction value generalizing other with
  | nil =>
    rw [List.map_nil, eq_comm, List.map_eq_nil_iff] at hlengths
    subst hlengths
    exact ⟨rfl, h⟩
  | cons atom value ih =>
    obtain _ | ⟨atom', other⟩ := other
    · cases hlengths
    rw [List.map_cons, List.map_cons, List.cons.injEq] at hlengths
    obtain ⟨hatom, hvalue⟩ := List.forall_mem_cons.mp hbytes
    rw [List.flatMap_cons, List.flatMap_cons, List.append_assoc, List.append_assoc] at h
    have hcount : atom.limbs.length = atom'.limbs.length := by
      rw [Atom.limbs, Atom.limbs, limbs_length, limbs_length, hlengths.1]
    obtain ⟨hlimbs, hrest⟩ := List.append_inj h hcount
    obtain ⟨rfl, hleft⟩ := ih hvalue hlengths.2 hrest
    exact ⟨by rw [Atom.eq_of_limbs hlengths.1 hatom hlimbs], hleft⟩

/-- An aligned value can be read off its field elements, whatever follows. -/
theorem valueFields_append {value other : AlignedValue} {rest left : List ℕ}
    (hbytes : AlignedValue.HasBytes value)
    (h : valueFields value ++ left = valueFields other ++ rest) :
    value = other ∧ left = rest := by
  rw [valueFields, valueFields, List.cons_append, List.cons_append, List.cons.injEq,
    List.append_assoc, List.append_assoc] at h
  have hcount : (value.map Atom.length).length = (other.map Atom.length).length := by
    simpa using h.1
  obtain ⟨hlengths, hlimbs⟩ := List.append_inj h.2 hcount
  exact flatMap_limbs_append hbytes hlengths hlimbs

/-! ### Instructions -/

/-- The code of `idx` with a path of one key. -/
def idxCode (pushPath : Bool) : ℕ := if pushPath then 0x70 else 0x50

/-- The code of `push`. -/
def pushCode (storage : Bool) : ℕ := if storage then 0x11 else 0x10

/-- The code of `ins` below one key. -/
def insCode (cached : Bool) : ℕ := if cached then 0xA1 else 0x91

/-- The code of `popeq`. -/
def popeqCode (cached : Bool) : ℕ := if cached then 0x0D else 0x0C

@[simp] theorem popeqCode_false : popeqCode false = 0x0C := rfl

@[simp] theorem popeqCode_true : popeqCode true = 0x0D := rfl

/-- The code of an instruction that a `.zkir` file declares. -/
def Op.code : Op → Option ℕ
  | .dup 0 => some 0x30
  | .idx false pushPath [_] => some (idxCode pushPath)
  | .push storage _ => some (pushCode storage)
  | .member => some 0x18
  | .addi _ => some 0x0E
  | .ins cached 1 => some (insCode cached)
  | .popeq cached _ => some (popeqCode cached)
  | _ => none

/-- The codes that the `.zkir` files declare; the first is that of `noop`. -/
def declaredCodes : List ℕ :=
  [0, 0x0C, 0x0D, 0x0E, 0x10, 0x11, 0x18, 0x30, 0x50, 0x70, 0x91, 0xA1]

/-- How everything else is written: maps and arrays not like null or a cell, and other instructions
with other codes. -/
structure UndeclaredFields where
  value : StateValue → List ℕ
  value_head : ∀ other, ∃ head tail, value other = head :: tail ∧ 1 < head
  instruction : Op → List ℕ
  instruction_head : ∀ op, ∃ head tail, instruction op = head :: tail ∧ head ∉ declaredCodes

variable (undeclared : UndeclaredFields)

/-- The field elements of a state value. -/
def stateFields : StateValue → List ℕ
  | .node (.leaf .null) => [0]
  | .node (.leaf (.cell value)) => 1 :: valueFields value
  | value => undeclared.value value

/-- The field elements of the data of an instruction. -/
def Op.data : Op → List ℕ
  | .idx _ _ path => path.flatMap valueFields
  | .push _ value => stateFields undeclared value
  | .addi immediate => [immediate]
  | .popeq _ (some result) => valueFields result
  | _ => []

/-- The field elements of an instruction. -/
def Op.fields : Op → List ℕ
  | .noop n => List.replicate n 0
  | op => match op.code with
    | some code => code :: op.data undeclared
    | none => undeclared.instruction op

/-- The state values that a transcript may push. -/
def StateValue.WellFormed : StateValue → Prop
  | .node (.leaf (.cell value)) => AlignedValue.HasBytes value
  | _ => True

/-- The instructions that a transcript may have. -/
def Op.WellFormed : Op → Prop
  | .idx _ _ path => ∀ value ∈ path, AlignedValue.HasBytes value
  | .push _ value => value.WellFormed
  | .popeq _ none => False
  | .popeq _ (some result) => AlignedValue.HasBytes result
  | _ => True

/-- The number of places that a `noop` fills. -/
def Op.padLength : Op → Option ℕ
  | .noop n => some n
  | _ => none

/-- The instructions that the circuits declare: those with a code, no map or array pushed, and
`noop`. -/
def Op.IsSimple : Op → Prop
  | .idx false _ [_] => True
  | .push _ (.node (.leaf _)) => True
  | .dup 0 | .ins _ 1 => True
  | .noop _ | .member | .addi _ | .popeq _ _ => True
  | _ => False

theorem mem_declaredCodes {op : Op} {code : ℕ} (h : op.code = some code) :
    code ∈ declaredCodes ∧ code ≠ 0 := by
  unfold Op.code at h
  split at h <;> cases h
  case h_2 pushPath _ => cases pushPath <;> decide
  case h_3 storage _ => cases storage <;> decide
  case h_6 cached => cases cached <;> decide
  case h_7 cached _ => cases cached <;> decide
  all_goals decide

theorem fields_of_code {op : Op} {code : ℕ} (h : op.code = some code) :
    op.fields undeclared = code :: op.data undeclared := by
  cases op with
  | noop n => cases h
  | dup | idx | push | member | size | eq | addi | ins | popeq => simp only [Op.fields, h]

theorem fields_of_code_eq_none {op : Op} (h : op.code = none) (hpad : op.padLength = none) :
    op.fields undeclared = undeclared.instruction op := by
  cases op with
  | noop n => cases hpad
  | dup | idx | push | member | size | eq | addi | ins | popeq => simp only [Op.fields, h]

/-- Transcripts as lists of field elements. -/
def fieldCode : PaddedCode Op ℕ where
  encode := Op.fields undeclared
  zero := 0
  pad := .noop
  padLength := Op.padLength
  Valid := Op.WellFormed
  valid_pad _ := trivial
  padLength_pad _ := rfl
  encode_pad {op n} h := by
    cases op <;> cases h
    rfl
  encode_cons {op} _ hpad := by
    cases hcode : op.code with
    | some code => exact ⟨_, _, fields_of_code undeclared hcode, (mem_declaredCodes hcode).2⟩
    | none =>
      obtain ⟨head, tail, hhead, hnot⟩ := undeclared.instruction_head op
      refine ⟨head, tail, by rw [fields_of_code_eq_none undeclared hcode hpad, hhead], ?_⟩
      rintro rfl
      exact hnot List.mem_cons_self

/-! ### Reading an instruction -/

variable {undeclared}

theorem stateFields_append {value : StateValue} {leaf : Leaf} {rest left : List ℕ}
    (hvalue : value.WellFormed)
    (h : stateFields undeclared value ++ left =
      stateFields undeclared (.node (.leaf leaf)) ++ rest) :
    value = .node (.leaf leaf) ∧ left = rest := by
  have hcontainer : ∀ other, stateFields undeclared other = undeclared.value other →
      stateFields undeclared other ++ left ≠
        stateFields undeclared (.node (.leaf leaf)) ++ rest := by
    intro other hother hfields
    obtain ⟨head, tail, hhead, hlt⟩ := undeclared.value_head other
    rw [hother, hhead] at hfields
    cases leaf <;> simp [stateFields] at hfields <;> omega
  match value, leaf with
  | .node (.leaf .null), .null => simpa [stateFields] using h
  | .node (.leaf (.cell value)), .cell other =>
    simp only [stateFields, List.cons_append, List.cons.injEq, true_and] at h
    obtain ⟨rfl, hrest⟩ := valueFields_append hvalue h
    exact ⟨rfl, hrest⟩
  | .node (.leaf .null), .cell _ => simp [stateFields] at h
  | .node (.leaf (.cell _)), .null => simp [stateFields] at h
  | .node (.map entries), _ => exact absurd h (hcontainer _ rfl)
  | .array items, _ => exact absurd h (hcontainer _ rfl)

/-- An instruction without its data. -/
def Op.shape : Op → Op
  | .idx cached pushPath path => .idx cached pushPath (List.replicate path.length [])
  | .push storage _ => .push storage newNull
  | .addi _ => .addi 0
  | .popeq cached _ => .popeq cached none
  | op => op

/-- The instruction, without its data, that has a code. -/
def shapeOfCode : ℕ → Op
  | 0x0C => .popeq false none
  | 0x0D => .popeq true none
  | 0x0E => .addi 0
  | 0x10 => .push false newNull
  | 0x11 => .push true newNull
  | 0x18 => .member
  | 0x30 => .dup 0
  | 0x50 => .idx false false [[]]
  | 0x70 => .idx false true [[]]
  | 0x91 => .ins false 1
  | 0xA1 => .ins true 1
  | _ => .noop 0

/-- The code of an instruction says which instruction it is. -/
theorem shapeOfCode_code {op : Op} {code : ℕ} (h : op.code = some code) :
    shapeOfCode code = op.shape := by
  unfold Op.code at h
  split at h <;> cases h
  case h_2 pushPath _ => cases pushPath <;> rfl
  case h_3 storage _ => cases storage <;> rfl
  case h_6 cached => cases cached <;> rfl
  case h_7 cached _ => cases cached <;> rfl
  all_goals rfl

/-- An instruction that is written like one with a code is the same, its data apart. -/
theorem data_of_append {op other : Op} {code : ℕ} {tail rest : List ℕ} (hcode : op.code = some code)
    (hpad : other.padLength = none) (h : other.fields undeclared ++ rest = code :: tail) :
    other.shape = op.shape ∧ other.data undeclared ++ rest = tail := by
  cases hother : other.code with
  | some code' =>
    rw [fields_of_code undeclared hother, List.cons_append] at h
    obtain ⟨rfl, hdata⟩ := List.cons.inj h
    exact ⟨by rw [← shapeOfCode_code hother, shapeOfCode_code hcode], hdata⟩
  | none =>
    obtain ⟨head, left, hhead, hnot⟩ := undeclared.instruction_head other
    rw [fields_of_code_eq_none undeclared hother hpad, hhead, List.cons_append] at h
    obtain ⟨rfl, _⟩ := List.cons.inj h
    exact absurd (mem_declaredCodes hcode).1 hnot

theorem exists_code_of_isSimple {op : Op} (hsimple : op.IsSimple) (hpad : op.padLength = none) :
    ∃ code, op.code = some code := by
  unfold Op.IsSimple at hsimple
  split at hsimple
  case h_5 => cases hpad
  case h_9 => exact hsimple.elim
  all_goals exact ⟨_, rfl⟩

/-- The instructions of the circuits can be told from every other instruction. -/
theorem readable_of_isSimple {op : Op} (hsimple : op.IsSimple) (hop : op.WellFormed)
    (hnot : op.padLength = none) : (fieldCode undeclared).Readable op where
  padLength_eq := hnot
  valid := hop
  of_append {other rest left} hother hpad h := by
    obtain ⟨code, hcode⟩ := exists_code_of_isSimple hsimple hnot
    have hfields : other.fields undeclared ++ left = code :: (op.data undeclared ++ rest) := by
      rw [← List.cons_append, ← fields_of_code undeclared hcode]
      exact h
    obtain ⟨hshape, hdata⟩ := data_of_append hcode hpad hfields
    cases op with
    | idx cached pushPath path =>
      match cached, path, hsimple with
      | false, [key], _ =>
        cases other <;> simp only [Op.shape, Op.idx.injEq, reduceCtorEq] at hshape
        case idx cached' pushPath' path' =>
          obtain ⟨rfl, rfl, hpath⟩ := hshape
          have hlength : path'.length = 1 := by simpa using congrArg List.length hpath
          obtain ⟨key', rfl⟩ := List.length_eq_one_iff.mp hlength
          simp only [Op.data, List.flatMap_cons, List.flatMap_nil, List.append_nil] at hdata
          obtain ⟨rfl, hrest⟩ := valueFields_append (hother key' (by simp)) hdata
          exact ⟨rfl, hrest⟩
    | push storage value =>
      match value, hsimple with
      | .node (.leaf leaf), _ =>
        cases other <;> simp only [Op.shape, Op.push.injEq, reduceCtorEq] at hshape
        case push storage' value' =>
          obtain ⟨rfl, -⟩ := hshape
          obtain ⟨rfl, hrest⟩ := stateFields_append hother hdata
          exact ⟨rfl, hrest⟩
    | popeq cached result =>
      match result, hop with
      | some result, _ =>
        cases other <;> simp only [Op.shape, Op.popeq.injEq, reduceCtorEq] at hshape
        case popeq cached' result' =>
          obtain ⟨rfl, -⟩ := hshape
          match result', hother with
          | some result', hbytes =>
            obtain ⟨rfl, hrest⟩ := valueFields_append hbytes hdata
            exact ⟨rfl, hrest⟩
    | addi immediate =>
      cases other <;> simp only [Op.shape, reduceCtorEq] at hshape
      case addi immediate' =>
        obtain ⟨rfl, hrest⟩ := List.cons.inj hdata
        exact ⟨rfl, hrest⟩
    | dup n =>
      cases other <;> simp only [Op.shape, reduceCtorEq, Op.dup.injEq] at hshape
      exact ⟨by rw [hshape], hdata⟩
    | ins cached n =>
      cases other <;> simp only [Op.shape, reduceCtorEq, Op.ins.injEq] at hshape
      exact ⟨by rw [hshape.1, hshape.2], hdata⟩
    | member =>
      cases other <;> simp only [Op.shape, reduceCtorEq] at hshape
      exact ⟨rfl, hdata⟩
    | noop n => cases hnot
    | size | eq => exact hsimple.elim

/-! ### The values of the contract -/

theorem hasBytes_atom {length x : ℕ} (h : 0 < length) : AlignedValue.HasBytes [⟨length, x⟩] := by
  simp [AlignedValue.HasBytes, h]

@[simp] theorem valueFields_atom {length x : ℕ} (hpos : 0 < length) (hlength : length ≤ 31) :
    valueFields [⟨length, x⟩] = [1, length, x] := by
  have hone : (length + 30) / 31 = 1 := by omega
  simp [valueFields, Atom.limbs, hone, limbs]

@[simp] theorem valueFields_bytes (value : ℕ) :
    valueFields [⟨32, value⟩] = [1, 32, value / 2 ^ 248, value % 2 ^ 248] := by
  simp [valueFields, Atom.limbs, limbs]

/-- The field elements of a `Maybe`. -/
@[simp] theorem valueFields_maybe (flag value : ℕ) :
    valueFields [⟨1, flag⟩, ⟨32, value⟩] =
      [2, 1, 32, flag, value / 2 ^ 248, value % 2 ^ 248] := by
  simp [valueFields, Atom.limbs, limbs]

@[simp] theorem valueFields_none0 :
    valueFields (descriptor5.toValue none0) = [2, 1, 32, 0, 0, 0] := by decide +kernel

@[simp] theorem valueFields_phase (phase : Phase) :
    valueFields (descriptor1.toValue phase) = [1, 1, phaseNumber phase] :=
  valueFields_atom (by decide) (by decide)

@[simp] theorem valueFields_uint64 (x : Uint64) :
    valueFields (descriptor0.toValue x) = [1, 8, x.val] :=
  valueFields_atom (by decide) (by decide)

theorem hasBytes_phase (phase : Phase) : AlignedValue.HasBytes (descriptor1.toValue phase) :=
  hasBytes_atom (by decide)

theorem hasBytes_uint64 (x : Uint64) : AlignedValue.HasBytes (descriptor0.toValue x) :=
  hasBytes_atom (by decide)

theorem hasBytes_bytes32 (bytes : Bytes32) : AlignedValue.HasBytes (descriptor2.toValue bytes) :=
  hasBytes_atom (by decide)

@[simp] theorem valueFields_cellKey (cell : Fin 256) :
    valueFields (cellKey cell) = [1, 1, cell.val] := by
  simp [valueFields, cellKey, descriptor11, compactTypeUnsignedInteger, Atom.limbs, limbs]

theorem hasBytes_cellKey (cell : Fin 256) : AlignedValue.HasBytes (cellKey cell) := by
  simp [AlignedValue.HasBytes, cellKey, descriptor11, compactTypeUnsignedInteger]

/-! ### Programs -/

/-- The instructions of a program are such as the circuits declare. -/
def Declarable (program : List Op) : Prop := ∀ op ∈ program, op.IsSimple ∧ op.WellFormed

theorem Declarable.append {first second : List Op} (hfirst : Declarable first)
    (hsecond : Declarable second) : Declarable (first ++ second) :=
  List.forall_mem_append.mpr ⟨hfirst, hsecond⟩

/-- A transcript whose field elements start with those of a program starts with that program, up to
`noop` instructions. -/
theorem read_program {message program : List Op} {rest : List ℕ}
    (hvalid : (fieldCode undeclared).ValidAll message) (hprogram : Declarable program)
    (h : (fieldCode undeclared).encodeAll message =
      (fieldCode undeclared).encodeAll program ++ rest) :
    ∃ left, (fieldCode undeclared).ValidAll left ∧
      (fieldCode undeclared).strip message =
        (fieldCode undeclared).strip program ++ (fieldCode undeclared).strip left ∧
      (fieldCode undeclared).encodeAll left = rest :=
  PaddedCode.decode_append hvalid (fun op hop hpad ↦
    readable_of_isSimple (hprogram op hop).1 (hprogram op hop).2 hpad) h

/-- A transcript with the field elements of a program is that program, up to `noop`
instructions. -/
theorem read_all {message program : List Op}
    (hvalid : (fieldCode undeclared).ValidAll message) (hprogram : Declarable program)
    (h : (fieldCode undeclared).encodeAll message = (fieldCode undeclared).encodeAll program) :
    (fieldCode undeclared).strip message = (fieldCode undeclared).strip program :=
  PaddedCode.decode hvalid (fun op hop hpad ↦
    readable_of_isSimple (hprogram op hop).1 (hprogram op hop).2 hpad) h

/-- A result of 32 bytes, read off its two limbs. -/
theorem read_result_bytes32 {message : List Op} {cached : Bool} {high low : ℕ} {rest : List ℕ}
    (hvalid : (fieldCode undeclared).ValidAll message)
    (h : (fieldCode undeclared).encodeAll message =
      popeqCode cached :: 1 :: 32 :: high :: low :: rest) :
    ∃ value left, (fieldCode undeclared).ValidAll left ∧
      (fieldCode undeclared).strip message =
        .popeq cached (some [⟨32, value⟩]) :: (fieldCode undeclared).strip left ∧
      (fieldCode undeclared).encodeAll left = rest ∧
        high = value / 2 ^ 248 ∧ low = value % 2 ^ 248 := by
  have hhead : popeqCode cached ≠ 0 := by cases cached <;> decide
  obtain ⟨op, left, hop, hpad, hleft, hstrip, hfields⟩ := PaddedCode.read_head hvalid hhead h
  have hop' : op.WellFormed := hop
  obtain ⟨hshape, hdata⟩ := @data_of_append _ (.popeq cached none) _ _ _ _ rfl hpad hfields
  cases op <;> simp only [Op.shape, Op.popeq.injEq, reduceCtorEq] at hshape
  case popeq cached' result =>
    obtain ⟨rfl, -⟩ := hshape
    match result, hop' with
    | some [], _ => simp [Op.data, valueFields] at hdata
    | some [⟨length, value⟩], _ =>
      simp only [Op.data, valueFields, List.map_cons, List.map_nil, List.flatMap_cons,
        List.flatMap_nil, List.append_nil, List.cons_append, List.cons.injEq] at hdata
      obtain ⟨-, rfl, hlimbs⟩ := hdata
      simp only [List.nil_append, Atom.limbs, limbs, List.cons_append, List.cons.injEq] at hlimbs
      obtain ⟨rfl, rfl, hrest⟩ := hlimbs
      exact ⟨value, left, hleft, hstrip, hrest, rfl, rfl⟩
    | some (_ :: _ :: _), _ => simp [Op.data, valueFields] at hdata

@[simp] theorem encode_eq (op : Op) : (fieldCode undeclared).encode op = op.fields undeclared := rfl

@[simp] theorem encodeAll_readCell (cached : Bool) (cell : Fin 256) (value : AlignedValue) :
    (fieldCode undeclared).encodeAll (readCell cached cell (some value)) =
      [0x30, 0x50, 1, 1, cell.val, popeqCode cached] ++ valueFields value := by
  simp [PaddedCode.encodeAll, readCell, Op.fields, Op.code, Op.data, idxCode]

@[simp] theorem encodeAll_testMember (cell : Fin 256) (key value : AlignedValue) :
    (fieldCode undeclared).encodeAll (testMember cell key (some value)) =
      [0x30, 0x50, 1, 1, cell.val, 0x10, 1] ++ valueFields key ++ [0x18, 0x0D] ++
        valueFields value := by
  simp [PaddedCode.encodeAll, testMember, Op.fields, Op.code, Op.data, idxCode, pushCode, popeqCode,
    stateFields, newCell]

@[simp] theorem encodeAll_lookupEntry (cell : Fin 256) (key value : AlignedValue) :
    (fieldCode undeclared).encodeAll (lookupEntry cell key (some value)) =
      [0x30, 0x50, 1, 1, cell.val, 0x50] ++ valueFields key ++ [0x0C] ++ valueFields value := by
  simp [PaddedCode.encodeAll, lookupEntry, Op.fields, Op.code, Op.data, idxCode, popeqCode]

@[simp] theorem encodeAll_writeCell (cell : Fin 256) (value : StateValue) :
    (fieldCode undeclared).encodeAll (writeCell cell value) =
      [0x10, 1, 1, 1, cell.val, 0x11] ++ stateFields undeclared value ++ [0x91] := by
  simp [PaddedCode.encodeAll, writeCell, Op.fields, Op.code, Op.data, pushCode, insCode,
    stateFields, newCell]

@[simp] theorem encodeAll_insertEntry (cell : Fin 256) (key : AlignedValue) (value : StateValue) :
    (fieldCode undeclared).encodeAll (insertEntry cell key value) =
      [0x70, 1, 1, cell.val, 0x10, 1] ++ valueFields key ++ [0x11] ++
        stateFields undeclared value ++ [0x91, 0xA1] := by
  simp [PaddedCode.encodeAll, insertEntry, Op.fields, Op.code, Op.data, idxCode, pushCode, insCode,
    stateFields, newCell]

@[simp] theorem encodeAll_increment (cell : Fin 256) (immediate : ℕ) :
    (fieldCode undeclared).encodeAll (increment cell immediate) =
      [0x70, 1, 1, cell.val, 0x0E, immediate, 0xA1] := by
  simp [PaddedCode.encodeAll, increment, Op.fields, Op.code, Op.data, idxCode, insCode]

@[simp] theorem encodeAll_nil : (fieldCode undeclared).encodeAll [] = [] := rfl

@[simp] theorem encodeAll_noop_cons (n : ℕ) (program : List Op) :
    (fieldCode undeclared).encodeAll (.noop n :: program) =
      List.replicate n 0 ++ (fieldCode undeclared).encodeAll program := rfl

@[simp] theorem stateFields_newCell (value : AlignedValue) :
    stateFields undeclared (newCell value) = 1 :: valueFields value := rfl

@[simp] theorem stateFields_newNull : stateFields undeclared newNull = [0] := rfl

theorem declarable_noop (n : ℕ) : Declarable [.noop n] := by
  simp [Declarable, Op.IsSimple, Op.WellFormed]

theorem declarable_readCell {cached : Bool} {cell : Fin 256} {value : AlignedValue}
    (hvalue : AlignedValue.HasBytes value) : Declarable (readCell cached cell (some value)) := by
  simp [Declarable, readCell, Op.IsSimple, Op.WellFormed, hasBytes_cellKey, hvalue]

theorem declarable_testMember {cell : Fin 256} {key value : AlignedValue}
    (hkey : AlignedValue.HasBytes key) (hvalue : AlignedValue.HasBytes value) :
    Declarable (testMember cell key (some value)) := by
  simp [Declarable, testMember, Op.IsSimple, Op.WellFormed, newCell, StateValue.WellFormed,
    hasBytes_cellKey, hkey, hvalue]

theorem declarable_lookupEntry {cell : Fin 256} {key value : AlignedValue}
    (hkey : AlignedValue.HasBytes key) (hvalue : AlignedValue.HasBytes value) :
    Declarable (lookupEntry cell key (some value)) := by
  simp [Declarable, lookupEntry, Op.IsSimple, Op.WellFormed, hasBytes_cellKey, hkey, hvalue]

theorem declarable_writeCell {cell : Fin 256} {value : AlignedValue}
    (hvalue : AlignedValue.HasBytes value) : Declarable (writeCell cell (newCell value)) := by
  simp [Declarable, writeCell, Op.IsSimple, Op.WellFormed, newCell, StateValue.WellFormed,
    hasBytes_cellKey, hvalue]

theorem declarable_insertEntry {cell : Fin 256} {key : AlignedValue} {leaf : Leaf}
    (hkey : AlignedValue.HasBytes key)
    (hleaf : StateValue.WellFormed (.node (.leaf leaf))) :
    Declarable (insertEntry cell key (.node (.leaf leaf))) := by
  simp [Declarable, insertEntry, Op.IsSimple, Op.WellFormed, newCell, hasBytes_cellKey,
    StateValue.WellFormed, hkey]
  exact hleaf

theorem declarable_increment {cell : Fin 256} {immediate : ℕ} :
    Declarable (increment cell immediate) := by
  simp [Declarable, increment, Op.IsSimple, Op.WellFormed, hasBytes_cellKey]

end SealedBid.Compiled
