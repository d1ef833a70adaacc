import SealedBid.Client.EnvFile
import SealedBid.Foundation.LayeredMap

/-!
# Loading `.env` files in layers

`loadNetworkEnv` of `env.ts`: the entries of `.env.<network>` are added to the process environment
unless their names are defined, and the names that were added are returned. One call fills the
environment from one layer in the sense of `LayeredMap`, and a sequence of calls from one layer
after the other (`loadAll_eq`).

So the environment always wins, the first file wins over the later ones and the last line over the
earlier ones, and a repeated call does nothing. This holds of every sequence of calls but for one
name: an assignment to `__proto__` is lost in the reader (`layeredLoading_iff`).

Scope. `path.resolve` and the file system are parameters; the files do not change, and a path that
exists is a file that can be read. The process environment is a finite map: the names that it
inherits as an object, such as `toString` and `constructor`, count as undefined.
-/

set_option autoImplicit false
set_option relaxedAutoImplicit false

namespace SealedBid

open LayeredMap MapEnumeration

/-- `process.env`. -/
abbrev ProcessEnv := Finmap fun _ : String ↦ String

structure LoadedEnv where
  file : Option String
  keys : List String
  deriving DecidableEq

/-- The arguments of `loadNetworkEnv`. -/
structure EnvCall where
  network : String
  cwd : String
  deriving DecidableEq

section Loading

variable (resolve : String → String → String) (readFile : String → Option String)

/-- Load `.env.<network>` into the environment, without overwriting anything already defined. -/
def loadNetworkEnv (env : ProcessEnv) (call : EnvCall) : ProcessEnv × LoadedEnv :=
  let file := resolve call.cwd (".env." ++ call.network)
  match readFile file with
  | none => (env, ⟨none, []⟩)
  | some contents =>
    let parsed := parseEnvFile contents
    let filled := fill env parsed.entries
    (filled.1, ⟨some file, filled.2⟩)

/-- The environment after a sequence of calls, and what the calls returned. -/
def loadAll (env : ProcessEnv) : List EnvCall → ProcessEnv × List LoadedEnv
  | [] => (env, [])
  | call :: calls =>
    let loaded := loadNetworkEnv resolve readFile env call
    let rest := loadAll loaded.1 calls
    (rest.1, loaded.2 :: rest.2)

/-- The text of the file that a call reads. -/
def fileOf (call : EnvCall) : Option String :=
  readFile (resolve call.cwd (".env." ++ call.network))

/-- What the file of a call assigns to a name in the end. -/
def assignedBy (call : EnvCall) (name : String) : Option String :=
  (fileOf resolve readFile call).bind (lastAssignment · name)

/-- What a sequence of calls is to do, with the environment and the results that it leaves. -/
structure LayeredLoading (initial : ProcessEnv) (calls : List EnvCall)
    (loaded : ProcessEnv × List LoadedEnv) : Prop where
  kept : ∀ name value, initial.lookup name = some value → loaded.1.lookup name = some value
  filled : ∀ name, initial.lookup name = none →
    loaded.1.lookup name = calls.findSome? fun call ↦ assignedBy resolve readFile call name
  keys_disjoint : (loaded.2.map LoadedEnv.keys).Pairwise List.Disjoint
  keys_exact : ∀ name, (∃ keys ∈ loaded.2.map LoadedEnv.keys, name ∈ keys) ↔
    initial.lookup name = none ∧ loaded.1.lookup name ≠ none
  repeated : ∀ call ∈ calls,
    (loadNetworkEnv resolve readFile loaded.1 call).1 = loaded.1 ∧
      (loadNetworkEnv resolve readFile loaded.1 call).2.keys = []

/-! ### Calls as layers -/

/-- The entries that a call adds unless they are defined. -/
def layerOf (call : EnvCall) : List (String × String) :=
  match fileOf resolve readFile call with
  | none => []
  | some contents => (parseEnvFile contents).entries

theorem lookup_layerOf (call : EnvCall) (name : String) :
    (layerOf resolve readFile call).lookup name =
      if name = "__proto__" then none else assignedBy resolve readFile call name := by
  unfold layerOf assignedBy
  cases fileOf resolve readFile call with
  | none => simp
  | some contents =>
    show (parseEnvFile contents).entries.lookup name = _
    rw [PlainObject.lookup_entries, get_parseEnvFile]
    rfl

theorem assignedBy_eq_none_iff {call : EnvCall} {name : String} :
    assignedBy resolve readFile call name = none ↔
      ∀ contents ∈ fileOf resolve readFile call, name ∉ (assignments contents).map Prod.fst := by
  simp only [assignedBy, Option.bind_eq_none_iff, lastAssignment, lookup_eq_none_iff_notMem,
    List.map_reverse, List.mem_reverse, Option.mem_def]

theorem loadNetworkEnv_eq (env : ProcessEnv) (call : EnvCall) :
    (loadNetworkEnv resolve readFile env call).1 = (fill env (layerOf resolve readFile call)).1 ∧
      (loadNetworkEnv resolve readFile env call).2.keys =
        (fill env (layerOf resolve readFile call)).2 := by
  simp only [loadNetworkEnv, layerOf, fileOf]
  cases readFile (resolve call.cwd (".env." ++ call.network)) <;> exact ⟨rfl, rfl⟩

/-- After a call a name has its value, or else the one that the file assigns it. -/
theorem lookup_loadNetworkEnv (env : ProcessEnv) (call : EnvCall) {name : String}
    (h : name ≠ "__proto__") :
    (loadNetworkEnv resolve readFile env call).1.lookup name =
      (env.lookup name).or (assignedBy resolve readFile call name) := by
  rw [(loadNetworkEnv_eq resolve readFile env call).1, lookup_fill, lookup_layerOf, if_neg h]

/-- A sequence of calls fills the environment from their layers. -/
theorem loadAll_eq (calls : List EnvCall) (env : ProcessEnv) :
    (loadAll resolve readFile env calls).1 =
        (fillLayers env (calls.map (layerOf resolve readFile))).1 ∧
      (loadAll resolve readFile env calls).2.map LoadedEnv.keys =
        (fillLayers env (calls.map (layerOf resolve readFile))).2 := by
  induction calls generalizing env with
  | nil => exact ⟨rfl, rfl⟩
  | cons call calls ih =>
    obtain ⟨henv, hkeys⟩ := loadNetworkEnv_eq resolve readFile env call
    obtain ⟨hrest, hreturned⟩ := ih (loadNetworkEnv resolve readFile env call).1
    rw [henv] at hrest hreturned
    constructor
    · rw [List.map_cons, fillLayers, ← hrest, ← henv]
      rfl
    · rw [List.map_cons, fillLayers, ← hreturned, ← hkeys, ← henv]
      rfl

/-- After a sequence of calls a name has its initial value, or else the one of the first file that
assigns it, unless it is `__proto__`. -/
theorem lookup_loadAll (calls : List EnvCall) (env : ProcessEnv) (name : String) :
    (loadAll resolve readFile env calls).1.lookup name =
      (env.lookup name).or
        (if name = "__proto__" then none
        else calls.findSome? fun call ↦ assignedBy resolve readFile call name) := by
  rw [(loadAll_eq resolve readFile calls env).1, lookup_fillLayers, List.findSome?_map]
  congr 1
  split_ifs with hname
  · rw [List.findSome?_eq_none_iff]
    intro call _
    rw [Function.comp_apply, lookup_layerOf, if_pos hname]
  · congr 1
    funext call
    rw [Function.comp_apply, lookup_layerOf, if_neg hname]

theorem loadNetworkEnv_of_mem {calls : List EnvCall} {call : EnvCall} (h : call ∈ calls)
    (env : ProcessEnv) :
    (loadNetworkEnv resolve readFile (loadAll resolve readFile env calls).1 call).1 =
        (loadAll resolve readFile env calls).1 ∧
      (loadNetworkEnv resolve readFile (loadAll resolve readFile env calls).1 call).2.keys =
        [] := by
  obtain ⟨henv, hkeys⟩ :=
    loadNetworkEnv_eq resolve readFile (loadAll resolve readFile env calls).1 call
  have hlayer : layerOf resolve readFile call ∈ calls.map (layerOf resolve readFile) :=
    List.mem_map_of_mem h
  rw [henv, hkeys, (loadAll_eq resolve readFile calls env).1, fill_of_mem env hlayer]
  exact ⟨rfl, rfl⟩

/-- When the files are layered. After every sequence of calls over any networks the environment has
kept its variables, and the missing ones are those of the first file that assigns them; the returned
keys are disjoint and are the new variables, and no call does anything a second time. This is so
exactly when `__proto__` is defined from the start or no line of a file assigns it. -/
theorem layeredLoading_iff (initial : ProcessEnv) (calls : List EnvCall) :
    LayeredLoading resolve readFile initial calls (loadAll resolve readFile initial calls) ↔
      initial.lookup "__proto__" ≠ none ∨
        ∀ call ∈ calls, ∀ contents ∈ fileOf resolve readFile call,
          "__proto__" ∉ (assignments contents).map Prod.fst := by
  constructor
  · intro hlayered
    by_cases hinitial : initial.lookup "__proto__" = none
    · refine Or.inr fun call hcall ↦ ?_
      have hfilled := hlayered.filled "__proto__" hinitial
      rw [lookup_loadAll, if_pos rfl, hinitial, Option.or_none, eq_comm,
        List.findSome?_eq_none_iff] at hfilled
      exact (assignedBy_eq_none_iff resolve readFile).mp (hfilled call hcall)
    · exact Or.inl hinitial
  · intro hproto
    refine ⟨fun name value hvalue ↦ ?_, fun name hname ↦ ?_, ?_, fun name ↦ ?_, ?_⟩
    · rw [lookup_loadAll, hvalue, Option.some_or]
    · rw [lookup_loadAll, hname, Option.none_or]
      split_ifs with heq
      · subst heq
        rw [eq_comm, List.findSome?_eq_none_iff]
        intro call hcall
        exact (assignedBy_eq_none_iff resolve readFile).mpr
          ((hproto.resolve_left fun hne ↦ hne hname) call hcall)
      · rfl
    · rw [(loadAll_eq resolve readFile calls initial).2]
      exact pairwise_disjoint_fillLayers _ _
    · rw [(loadAll_eq resolve readFile calls initial).1,
        (loadAll_eq resolve readFile calls initial).2]
      exact mem_fillLayers_iff _ _ name
    · exact fun call hcall ↦ loadNetworkEnv_of_mem resolve readFile hcall initial

end Loading

/-! ### A lost assignment -/

/-- A file below a directory. -/
def joinPath (cwd file : String) : String := cwd ++ "/" ++ file

/-- A directory with one file, which has one line. -/
def protoFiles (file : String) : Option String :=
  if file = "/app/.env.local" then some "__proto__=1" else none

/-- One call in an empty environment: the file assigns a variable that is not defined then. -/
theorem layeredLoading_proto :
    ¬ LayeredLoading joinPath protoFiles ∅ [⟨"local", "/app"⟩]
      (loadAll joinPath protoFiles ∅ [⟨"local", "/app"⟩]) := by
  intro hlayered
  exact absurd (hlayered.filled "__proto__" rfl) (by decide +kernel)

end SealedBid
