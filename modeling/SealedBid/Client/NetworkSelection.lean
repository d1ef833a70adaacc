import SealedBid.Client.Config
import SealedBid.Client.EnvLoading
import SealedBid.Foundation.FailSafeRun

/-!
# The network and its file

The two places in which `config.ts` reads the variable `MIDNIGHT_NETWORK`. When the module is
imported it loads the file of the network that the variable names, or of the local devnet
(`importConfig`); later `getConfig` reads the variable again, checks it, and returns the
configuration of the network.

The file that is loaded in between may define the variable. It does so only if the variable was not
set, and then the file is the one of the local devnet while `getConfig` answers with whatever
network the file names (`getConfig_importConfig_iff`).

Scope. Of the environment that a configuration is built from, only the name of the network is read.
-/

set_option autoImplicit false
set_option relaxedAutoImplicit false

namespace SealedBid

/-- `NETWORKS`. -/
def networks : NetworkName → NetworkConfig
  | .local => localConfig
  | .preview => previewConfig
  | .preprod => preprodConfig

/-- The keys of `NETWORKS`. -/
def networkNames : List NetworkName := [.local, .preview, .preprod]

def parseNetworkName (value : Option String) : Except String NetworkName :=
  let name := value.getD "local"
  match networkNames.find? fun network ↦ network.toString = name with
  | some network => .ok network
  | none =>
    .error ("Unknown network '" ++ value.getD "undefined" ++ "'. Expected one of: " ++
      ", ".intercalate (networkNames.map NetworkName.toString) ++ ".")

def getConfig (env : ProcessEnv) : Except String NetworkConfig := do
  let name ← parseNetworkName (env.lookup "MIDNIGHT_NETWORK")
  return networks name

/-- The network whose file the import of `config.ts` loads. -/
def loadedNetwork (env : ProcessEnv) : String := (env.lookup "MIDNIGHT_NETWORK").getD "local"

/-- The environment after the import of `config.ts`, and what was loaded. -/
def importConfig (resolve : String → String → String) (readFile : String → Option String)
    (cwd : String) (env : ProcessEnv) : ProcessEnv × LoadedEnv :=
  loadNetworkEnv resolve readFile env ⟨loadedNetwork env, cwd⟩

/-! ### Names of networks -/

theorem toString_injective : Function.Injective NetworkName.toString := by
  intro first second h
  cases first <;> cases second <;> first | rfl | exact absurd h (by decide)

theorem mem_networkNames (name : NetworkName) : name ∈ networkNames := by
  cases name <;> decide

/-- Each network has its own configuration. -/
theorem networks_name (name : NetworkName) : (networks name).name = name := by
  cases name <;> rfl

/-- The names that are accepted. -/
theorem parseNetworkName_eq_ok_iff {value : Option String} {name : NetworkName} :
    parseNetworkName value = .ok name ↔ name.toString = value.getD "local" := by
  unfold parseNetworkName
  cases hfind : networkNames.find? fun network ↦ network.toString = value.getD "local" with
  | some network =>
    have hnetwork : network.toString = value.getD "local" := by simpa using List.find?_some hfind
    simp only [hfind, Except.ok.injEq]
    rw [← hnetwork, toString_injective.eq_iff, eq_comm]
  | none =>
    have hunknown : name.toString ≠ value.getD "local" := by
      simpa using List.find?_eq_none.mp hfind name (mem_networkNames name)
    simp only [hfind, hunknown, reduceCtorEq]

theorem getConfig_eq_ok_iff {env : ProcessEnv} {config : NetworkConfig} :
    getConfig env = .ok config ↔
      ∃ name : NetworkName, name.toString = loadedNetwork env ∧ config = networks name := by
  simp only [getConfig, FailSafeRun.bind_eq_ok_iff, parseNetworkName_eq_ok_iff, pure, Except.pure,
    Except.ok.injEq, loadedNetwork, @eq_comm _ (networks _)]

/-! ### The two readings of the variable -/

section Readings

variable {resolve : String → String → String} {readFile : String → Option String} {cwd : String}
  {env : ProcessEnv}

theorem loadedNetwork_of_some {network : String}
    (h : env.lookup "MIDNIGHT_NETWORK" = some network) : loadedNetwork env = network := by
  rw [loadedNetwork, h, Option.getD_some]

theorem loadedNetwork_of_none (h : env.lookup "MIDNIGHT_NETWORK" = none) :
    loadedNetwork env = "local" := by
  rw [loadedNetwork, h, Option.getD_none]

/-- A variable that is set is read the same both times. -/
theorem loadedNetwork_importConfig_of_some {network : String}
    (h : env.lookup "MIDNIGHT_NETWORK" = some network) :
    loadedNetwork (importConfig resolve readFile cwd env).1 = loadedNetwork env := by
  rw [loadedNetwork_of_some h, loadedNetwork, importConfig,
    lookup_loadNetworkEnv resolve readFile env _ (by decide), h, Option.some_or, Option.getD_some]

/-- A variable that is not set is read from the file of the local devnet the second time. -/
theorem loadedNetwork_importConfig_of_none (h : env.lookup "MIDNIGHT_NETWORK" = none) :
    loadedNetwork (importConfig resolve readFile cwd env).1 =
      (assignedBy resolve readFile ⟨"local", cwd⟩ "MIDNIGHT_NETWORK").getD "local" := by
  rw [loadedNetwork, importConfig, lookup_loadNetworkEnv resolve readFile env _ (by decide), h,
    Option.none_or, loadedNetwork_of_none h]

end Readings

/-- When the configuration is the one of the network whose file was loaded. For every environment
and every contents of the files, a configuration that is returned after the import has the name of
the network whose file the import loaded exactly when the variable `MIDNIGHT_NETWORK` was set, or
`.env.local` does not assign it the name of another network. -/
theorem getConfig_importConfig_iff (resolve : String → String → String)
    (readFile : String → Option String) (cwd : String) (env : ProcessEnv) :
    (∀ config, getConfig (importConfig resolve readFile cwd env).1 = .ok config →
      config.name.toString = loadedNetwork env) ↔
    env.lookup "MIDNIGHT_NETWORK" ≠ none ∨
      ∀ name : NetworkName,
        assignedBy resolve readFile ⟨"local", cwd⟩ "MIDNIGHT_NETWORK" = some name.toString →
          name = .local := by
  simp only [getConfig_eq_ok_iff]
  cases hnetwork : env.lookup "MIDNIGHT_NETWORK" with
  | some network =>
    refine iff_of_true ?_ (Or.inl (Option.some_ne_none network))
    rintro config ⟨name, hname, rfl⟩
    rw [networks_name, hname, loadedNetwork_importConfig_of_some hnetwork]
  | none =>
    rw [or_iff_right fun h ↦ h rfl, loadedNetwork_importConfig_of_none hnetwork,
      loadedNetwork_of_none hnetwork]
    constructor
    · intro hagree name hassigned
      have hname := hagree (networks name) ⟨name, by rw [hassigned, Option.getD_some], rfl⟩
      rw [networks_name] at hname
      exact toString_injective hname
    · rintro hlocal config ⟨name, hname, rfl⟩
      rw [networks_name]
      cases hassigned : assignedBy resolve readFile ⟨"local", cwd⟩ "MIDNIGHT_NETWORK" with
      | none => rw [hname, hassigned, Option.getD_none]
      | some assigned =>
        rw [hassigned, Option.getD_some] at hname
        rw [hlocal name (by rw [hassigned, hname])]
        rfl

/-- A directory with one file, which has one line. -/
def localFiles (file : String) : Option String :=
  if file = "/app/.env.local" then some "MIDNIGHT_NETWORK=preview\n" else none

/-- The variable is not set and the file of the local devnet sets it: the file that is loaded is
`.env.local` and the configuration is the one of Preview. -/
theorem getConfig_importConfig_preview :
    ¬ ∀ config, getConfig (importConfig joinPath localFiles "/app" ∅).1 = .ok config →
      config.name.toString = loadedNetwork ∅ := by
  intro hagree
  exact absurd (hagree previewConfig rfl) (by decide)

end SealedBid
