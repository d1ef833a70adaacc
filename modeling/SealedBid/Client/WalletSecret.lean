import SealedBid.Client.Deploy
import SealedBid.Client.NetworkSelection
import SealedBid.Foundation.Words

/-!
# The secret of a wallet

`resolveWalletSecret` of `config.ts`: on the local devnet the wallet has a seed that may be left
out; on the other networks it has a seed or a mnemonic, from a variable with the name of the network
in it, and exactly one of the two must be given. A mnemonic is trimmed and its white space replaced
by single spaces, a seed is trimmed and has to be hexadecimal.

What counts is the words of the two variables (`resolveWalletSecret_eq`): the secret, and the error
when there is none, is a function of them (`secretOfWords`), and a secret that is resolved can be
written into a new `.env` file, from which it is read again (`walletSecret_of_files`).

Scope. As for the `.env` files.
-/

set_option autoImplicit false
set_option relaxedAutoImplicit false

namespace SealedBid

open TextLines

/-! ### The resolver -/

/-- `DEV_SEED`. -/
def devSeed : String := "0000000000000000000000000000000000000000000000000000000000000001"

/-- `name.toUpperCase()`. -/
def NetworkName.toUpperCase (name : NetworkName) : String :=
  String.ofList (name.toString.toList.map Char.toUpper)

def mnemonicEnv (name : NetworkName) : String := "MIDNIGHT_" ++ name.toUpperCase ++ "_MNEMONIC"

def seedEnv (name : NetworkName) : String := "MIDNIGHT_" ++ name.toUpperCase ++ "_SEED"

/-- The error when both variables are given. -/
def bothDefined (name : NetworkName) : String :=
  "Set only one of " ++ mnemonicEnv name ++ " or " ++ seedEnv name ++ ", but both are defined."

/-- The error for a seed that is not hexadecimal. -/
def malformedSeed (name : NetworkName) : String :=
  seedEnv name ++ " must be an even-length hex string with no 0x prefix."

/-- The error when neither variable is given. -/
def noSecret (name : NetworkName) : String :=
  "No wallet secret for '" ++ name.toString ++ "'. Set " ++ seedEnv name ++ " (64-char hex) or " ++
    mnemonicEnv name ++ " in a git-ignored .env." ++ name.toString ++
    " file, or export it in the shell. See .env." ++ name.toString ++ ".example."

/-- `/[0-9a-fA-F]/`. -/
def isHexDigit (c : Char) : Bool :=
  ('0' ≤ c ∧ c ≤ '9') ∨ ('a' ≤ c ∧ c ≤ 'f') ∨ ('A' ≤ c ∧ c ≤ 'F')

/-- A seed is a positive even number of hexadecimal digits. -/
def IsSeed (seed : List Char) : Prop :=
  seed ≠ [] ∧ seed.all isHexDigit ∧ seed.length % 2 = 0
  deriving Decidable

/-- The text of a variable; a variable that is not defined and an empty one are both left out. -/
def textOf (env : ProcessEnv) (name : String) : List Char := ((env.lookup name).getD "").toList

def resolveWalletSecret (env : ProcessEnv) (config : NetworkConfig) :
    Except String WalletSecret :=
  if config.name = .local then
    let seed := trim (textOf env "MIDNIGHT_LOCAL_SEED")
    .ok (.seed (if seed = [] then devSeed else String.ofList seed))
  else
    let mnemonic := replaceWhiteSpace (trim (textOf env (mnemonicEnv config.name)))
    let seed := trim (textOf env (seedEnv config.name))
    if mnemonic ≠ [] ∧ seed ≠ [] then .error (bothDefined config.name)
    else if mnemonic ≠ [] then .ok (.mnemonic (String.ofList mnemonic))
    else if seed ≠ [] then
      if IsSeed seed then .ok (.seed (String.ofList seed))
      else .error (malformedSeed config.name)
    else .error (noSecret config.name)

/-! ### The secret in terms of words -/

/-- The secret that the words of the two variables make. -/
def secretOfWords (name : NetworkName) (mnemonic seed : List (List Char)) :
    Except String WalletSecret :=
  match mnemonic, seed with
  | [], [] => .error (noSecret name)
  | [], [word] =>
    if IsSeed word then .ok (.seed (String.ofList word)) else .error (malformedSeed name)
  | [], _ :: _ :: _ => .error (malformedSeed name)
  | _ :: _, [] => .ok (.mnemonic (String.ofList ([' '].intercalate mnemonic)))
  | _ :: _, _ :: _ => .error (bothDefined name)

theorem isWhiteSpace_of_isHexDigit {c : Char} (h : isHexDigit c = true) :
    isWhiteSpace c = false := by
  simp only [isWhiteSpace, decide_eq_false_iff_not]
  intro hmem
  fin_cases hmem <;> exact absurd h (by decide)

/-- The words of a text that is a seed. -/
theorem words_of_isSeed {text : List Char} (h : IsSeed (trim text)) : words text = [trim text] := by
  refine words_eq_singleton_iff.mpr ⟨rfl, h.1, fun c hc ↦ ?_⟩
  exact isWhiteSpace_of_isHexDigit (List.all_eq_true.mp h.2.1 c hc)

theorem intercalate_words_eq_nil_iff {text : List Char} :
    [' '].intercalate (words text) = [] ↔ words text = [] := by
  constructor
  · intro hnil
    rw [← words_intercalate, hnil]
    rfl
  · intro hnil
    rw [hnil]
    rfl

/-- On a public network the secret is a function of the words of the two variables. -/
theorem resolveWalletSecret_eq (env : ProcessEnv) {name : NetworkName} (hname : name ≠ .local) :
    resolveWalletSecret env (networks name) =
      secretOfWords name (words (textOf env (mnemonicEnv name)))
        (words (textOf env (seedEnv name))) := by
  rw [resolveWalletSecret, networks_name, if_neg hname]
  simp only [replaceWhiteSpace_trim, ne_eq, intercalate_words_eq_nil_iff, trim_eq_nil_iff]
  cases hmnemonic : words (textOf env (mnemonicEnv name)) with
  | cons word rest =>
    cases hseed : words (textOf env (seedEnv name)) with
    | nil => simp [secretOfWords]
    | cons seedWord others => simp [secretOfWords]
  | nil =>
    by_cases hseed : IsSeed (trim (textOf env (seedEnv name)))
    · rw [words_of_isSeed hseed]
      simp [secretOfWords, hseed]
    · rcases hwords : words (textOf env (seedEnv name)) with _ | ⟨word, _ | ⟨other, rest⟩⟩
      · simp [secretOfWords]
      · obtain ⟨rfl, -, -⟩ := words_eq_singleton_iff.mp hwords
        simp [secretOfWords, hseed]
      · simp [secretOfWords, hseed]

theorem secretOfWords_eq_ok_iff {name : NetworkName} {mnemonic seed : List (List Char)}
    {secret : WalletSecret} :
    secretOfWords name mnemonic seed = .ok secret ↔
      (mnemonic = [] ∧ ∃ word, seed = [word] ∧ IsSeed word ∧
        secret = .seed (String.ofList word)) ∨
      (mnemonic ≠ [] ∧ seed = [] ∧
        secret = .mnemonic (String.ofList ([' '].intercalate mnemonic))) := by
  rcases mnemonic with _ | ⟨word, rest⟩
  · rcases seed with _ | ⟨seedWord, _ | ⟨other, others⟩⟩
    · simp [secretOfWords]
    · by_cases hseed : IsSeed seedWord
      · simp [secretOfWords, hseed, eq_comm]
      · simp [secretOfWords, hseed]
    · simp [secretOfWords]
  · rcases seed with _ | ⟨seedWord, others⟩
    · simp [secretOfWords, eq_comm]
    · simp [secretOfWords]

/-! ### A secret in a file -/

/-- The line of a file that gives a secret. -/
def secretLine (name : NetworkName) : WalletSecret → EnvLine
  | .seed value => .pair (seedEnv name) value (.quoted .double)
  | .mnemonic value => .pair (mnemonicEnv name) value (.quoted .double)

/-- The name of a variable is a key that a file may have. -/
def IsKey (key : String) : Prop :=
  key ≠ "" ∧ Unpadded key.toList ∧ '=' ∉ key.toList ∧ '\n' ∉ key.toList ∧
    key.toList.head? ≠ some '#'
  deriving Decidable

theorem isKey_variables (name : NetworkName) :
    IsKey (mnemonicEnv name) ∧ IsKey (seedEnv name) ∧ mnemonicEnv name ≠ "__proto__" ∧
      seedEnv name ≠ "__proto__" ∧ mnemonicEnv name ≠ seedEnv name := by
  cases name <;> decide +kernel

section Files

variable {resolve : String → String → String} {readFile : String → Option String} {cwd : String}

/-- The environment that is loaded from a file with one line into an empty one. -/
theorem textOf_ofLine {line : EnvLine} (hline : line.WellFormed) {network key : String}
    (hkey : key ≠ "__proto__")
    (hfile : readFile (resolve cwd (".env." ++ network)) =
      some (EnvDocument.ofLine line hline).text) :
    textOf (loadNetworkEnv resolve readFile ∅ ⟨network, cwd⟩).1 key =
      ((line.assigned.toList.lookup key).getD "").toList := by
  have hassigned : assignedBy resolve readFile ⟨network, cwd⟩ key =
      line.assigned.toList.lookup key := by
    rw [assignedBy, fileOf, hfile, Option.bind_some, EnvDocument.lastAssignment_text,
      EnvDocument.assignments_text]
    cases hassigned : line.assigned <;> simp [EnvDocument.ofLine, EnvDocument.lines, hassigned]
  rw [textOf, lookup_loadNetworkEnv resolve readFile ∅ _ hkey, hassigned, Finmap.lookup_empty,
    Option.none_or]

/-- The words of a text joined by spaces have no line feed. -/
theorem newline_notMem_intercalate (text : List Char) :
    '\n' ∉ [' '].intercalate (words text) := by
  rw [← replaceWhiteSpace_trim]
  intro hmem
  exact absurd (eq_space_of_mem_replaceFrom hmem rfl) (by decide)

/-- A secret that is resolved can be written on a line. -/
theorem wellFormed_secretLine {name : NetworkName} {mnemonic seed : List Char}
    {secret : WalletSecret} (h : secretOfWords name (words mnemonic) (words seed) = .ok secret) :
    (secretLine name secret).WellFormed := by
  obtain ⟨hmnemonic, hseed, -⟩ := isKey_variables name
  rcases secretOfWords_eq_ok_iff.mp h with ⟨_, word, _, hword, rfl⟩ | ⟨_, _, rfl⟩
  · refine ⟨hseed, ?_, fun hbare ↦ by cases hbare⟩
    rw [String.toList_ofList]
    intro hmem
    exact absurd (List.all_eq_true.mp hword.2.1 _ hmem) (by decide)
  · refine ⟨hmnemonic, ?_, fun hbare ↦ by cases hbare⟩
    rw [String.toList_ofList]
    exact newline_notMem_intercalate mnemonic

/-- A secret that was resolved from some words, written into a file, is resolved from that file. -/
theorem resolve_secretLine {name : NetworkName} (hname : name ≠ .local)
    {mnemonic seed : List Char} {secret : WalletSecret}
    (h : secretOfWords name (words mnemonic) (words seed) = .ok secret)
    (hfile : readFile (resolve cwd (".env." ++ name.toString)) =
      some (EnvDocument.ofLine (secretLine name secret) (wellFormed_secretLine h)).text) :
    resolveWalletSecret (loadNetworkEnv resolve readFile ∅ ⟨name.toString, cwd⟩).1
      (networks name) = .ok secret := by
  obtain ⟨-, -, hmnemonic, hseed, hne⟩ := isKey_variables name
  rw [resolveWalletSecret_eq _ hname, textOf_ofLine (wellFormed_secretLine h) hmnemonic hfile,
    textOf_ofLine (wellFormed_secretLine h) hseed hfile, secretOfWords_eq_ok_iff]
  rcases secretOfWords_eq_ok_iff.mp h with ⟨_, word, hwords, hword, rfl⟩ | ⟨hgiven, _, rfl⟩
  · refine Or.inl ⟨?_, word, ?_, hword, rfl⟩
    · simp [secretLine, EnvLine.assigned, hne, words]
    · obtain ⟨-, hword', hwhite⟩ := words_eq_singleton_iff.mp hwords
      have hself : words word = [word] := words_of_notWhite hword' hwhite
      simpa [secretLine, EnvLine.assigned] using hself
  · have hself := words_intercalate mnemonic
    refine Or.inr ⟨?_, ?_, ?_⟩
    · simpa [secretLine, EnvLine.assigned, hself] using hgiven
    · simp [secretLine, EnvLine.assigned, Ne.symm hne, words]
    · simp [secretLine, EnvLine.assigned, hself]

/-- **The secret is what is written for its network.** Over every environment and every sequence of
loaded files, the secret of a public network, or the error when there is none, is a function of the
words of its two variables, each from the environment or else from the first file that assigns it.
And a secret that is resolved can be moved: from a new `.env` file with it as the only line, loaded
into an empty environment, the same secret is resolved. Assumes: the network is not the local
devnet. -/
theorem walletSecret_of_files (resolve : String → String → String)
    (readFile : String → Option String) (initial : ProcessEnv) (calls : List EnvCall)
    {name : NetworkName} (hname : name ≠ .local) :
    let env := (loadAll resolve readFile initial calls).1
    let written := fun key ↦ words (((initial.lookup key).or
      (calls.findSome? fun call ↦ assignedBy resolve readFile call key)).getD "").toList
    resolveWalletSecret env (networks name) =
        secretOfWords name (written (mnemonicEnv name)) (written (seedEnv name)) ∧
      ∀ secret, resolveWalletSecret env (networks name) = .ok secret →
        ∃ hline : (secretLine name secret).WellFormed, ∀ (readFile' : String → Option String) cwd,
          readFile' (resolve cwd (".env." ++ name.toString)) =
              some (EnvDocument.ofLine (secretLine name secret) hline).text →
            resolveWalletSecret (loadNetworkEnv resolve readFile' ∅ ⟨name.toString, cwd⟩).1
              (networks name) = .ok secret := by
  intro env written
  obtain ⟨-, -, hmnemonic, hseed, -⟩ := isKey_variables name
  have htext : ∀ key, key ≠ "__proto__" → words (textOf env key) = written key := by
    intro key hkey
    rw [textOf, lookup_loadAll, if_neg hkey]
  have hresolve : resolveWalletSecret env (networks name) =
      secretOfWords name (written (mnemonicEnv name)) (written (seedEnv name)) := by
    rw [resolveWalletSecret_eq env hname, htext _ hmnemonic, htext _ hseed]
  refine ⟨hresolve, fun secret hsecret ↦ ?_⟩
  rw [hresolve] at hsecret
  exact ⟨wellFormed_secretLine hsecret, fun _ _ hfile ↦ resolve_secretLine hname hsecret hfile⟩

/-- A directory with a file for Preview. -/
def previewFiles (file : String) : Option String :=
  if file = "/app/.env.preview" then
    some "MIDNIGHT_PREVIEW_MNEMONIC='  abandon\tability  able '\nMIDNIGHT_PREVIEW_SEED=\n"
  else none

theorem walletSecret_of_files_harness :
    resolveWalletSecret (loadAll joinPath previewFiles ∅ [⟨"preview", "/app"⟩]).1
      (networks .preview) = .ok (.mnemonic "abandon ability able") := by
  rw [(walletSecret_of_files joinPath previewFiles ∅ [⟨"preview", "/app"⟩]
    (show NetworkName.preview ≠ .local by decide)).1]
  decide +kernel

end Files

end SealedBid
