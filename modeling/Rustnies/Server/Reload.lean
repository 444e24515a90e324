import Rustnies.Server.Peers
import Mathlib.Data.List.Induction

/-! # Reloading the authorized peers

`spawn_sighup` in `daemon/mod.rs` reads the configuration file again, with the loader of
`config.rs` that was written for default paths: a file that is not there is an empty one to
it, and an empty one has no `[[peers]]` section.
-/

namespace Rustnies

/-- What a reload reads of the configuration file. -/
structure ServerFileConfig where
  peers : Option (List PeerEntry) := none

inductive IoErrorKind where
  | notFound
  | invalidData
  | other
  deriving Repr, DecidableEq

structure IoError where
  kind : IoErrorKind
  message : String
  deriving Repr, DecidableEq

/-- The TOML reader, for any document and for a server's configuration. -/
structure Toml where
  value : String → Except String Unit
  config : String → Except String ServerFileConfig

namespace ServerFileConfig

def fromToml (toml : Toml) (s : String) : Except String ServerFileConfig :=
  (toml.value s).bind fun _ => toml.config s

/-- `read` is what reading the file at the path gave. -/
def loadOrEmpty (toml : Toml) (path : String) (read : Except IoError String) :
    Except IoError ServerFileConfig :=
  match read with
  | .ok s =>
      (fromToml toml s).mapError fun e =>
        ⟨.invalidData, "invalid server config " ++ path ++ ": " ++ e⟩
  | .error e => if e.kind = .notFound then .ok {} else .error e

end ServerFileConfig

inductive PeerOp where
  | reload (read : Except IoError String)
  | revoke (key : Bytes)
  | unrevoke (key : Bytes)

namespace PeerAuth

/-- What `run_server` starts with. -/
def configured : Option (List PeerEntry) → PeerAuth
  | some entries => fromEntries entries
  | none => openMode

/-- One round of the loop of `spawn_sighup`. -/
def reload (toml : Toml) (path : String) (auth : PeerAuth) (read : Except IoError String) :
    PeerAuth :=
  match ServerFileConfig.loadOrEmpty toml path read with
  | .ok file =>
      match file.peers with
      | some entries => auth.setPeers entries
      | none => auth.setOpen
  | .error _ => auth

def apply (toml : Toml) (path : String) (auth : PeerAuth) : PeerOp → PeerAuth
  | .reload read => auth.reload toml path read
  | .revoke key => auth.revoke key
  | .unrevoke key => auth.unrevoke key

/-- The peers after a server started with some and then did the operations. -/
def after (toml : Toml) (path : String) (peers : Option (List PeerEntry)) (ops : List PeerOp) :
    PeerAuth :=
  ops.foldl (apply toml path) (configured peers)

/-! ## What the reloads should keep to -/

/-- The configuration in a file, where it can be read and parsed. -/
def fileConfig (toml : Toml) (read : Except IoError String) : Option ServerFileConfig :=
  read.toOption.bind fun s => (ServerFileConfig.fromToml toml s).toOption

/-- The `[[peers]]` section of the last file that was read, at the start or by a reload. -/
def lastRead (toml : Toml) (peers : Option (List PeerEntry)) (ops : List PeerOp) :
    Option (List PeerEntry) :=
  ops.foldl (fun last op =>
    match op with
    | .reload read => ((fileConfig toml read).map ServerFileConfig.peers).getD last
    | _ => last) peers

structure ReloadsSafely (toml : Toml) (path : String) (peers : Option (List PeerEntry))
    (ops : List PeerOp) :
    Prop where
  /-- Open mode is what the last file read asks for. -/
  opened : ∀ before later, ops = before ++ later → (after toml path peers before).isOpenMode =
    true → lastRead toml peers before = none
  /-- A file that cannot be read or parsed changes nothing. -/
  unread : ∀ before read later, ops = before ++ .reload read :: later → fileConfig toml read =
    none → after toml path peers (before ++ [.reload read]) = after toml path peers before
  /-- A revoked key is denied until it is unrevoked. -/
  revoked : ∀ before key mid later, ops = before ++ .revoke key ::
    (mid ++ later) → .unrevoke key ∉
    mid → (after toml path peers (before ++ .revoke key :: mid)).authorized key = false ∧
    ((after toml path peers (before ++ .revoke key :: mid)).check key).1 = false

/-- The file is not there. -/
def Missing (read : Except IoError String) : Prop := ∃ e, read = .error e ∧ e.kind = .notFound

/-! ## One reload -/

variable {toml : Toml} {path : String} {auth : PeerAuth} {read : Except IoError String}

theorem reload_of_read {file : ServerFileConfig} (found : fileConfig toml read = some file) :
    auth.reload toml path read = match file.peers with
      | some entries => auth.setPeers entries
      | none => auth.setOpen := by
  cases read with
  | error e => cases found
  | ok s =>
      simp only [fileConfig, Except.toOption, Option.bind_some] at found
      simp only [reload, ServerFileConfig.loadOrEmpty]
      cases parsed : ServerFileConfig.fromToml toml s with
      | error e =>
          rw [parsed] at found
          cases found
      | ok file' =>
          rw [parsed] at found
          cases found
          rfl

/-- A reload that reads none keeps the peers, unless the file is missing: then the server
    is opened. -/
theorem reload_of_unread (failed : fileConfig toml read = none) :
    (Missing read ∧ auth.reload toml path read = auth.setOpen) ∨
      (¬ Missing read ∧ auth.reload toml path read = auth) := by
  cases read with
  | error e =>
      simp only [reload, ServerFileConfig.loadOrEmpty]
      by_cases missing : e.kind = .notFound
      · refine .inl ⟨⟨e, rfl, missing⟩, ?_⟩
        rw [if_pos missing]
      · refine .inr ⟨?_, by rw [if_neg missing]⟩
        rintro ⟨_, ⟨⟩, missing'⟩
        exact missing missing'
  | ok s =>
      simp only [fileConfig, Except.toOption, Option.bind_some] at failed
      refine .inr ⟨?_, ?_⟩
      · rintro ⟨_, ⟨⟩, _⟩
      · simp only [reload, ServerFileConfig.loadOrEmpty]
        cases parsed : ServerFileConfig.fromToml toml s with
        | error e => rfl
        | ok file =>
            rw [parsed] at failed
            cases failed

theorem fileConfig_of_missing (missing : Missing read) : fileConfig toml read = none := by
  obtain ⟨e, rfl, -⟩ := missing
  rfl

theorem isRevoked_apply {key : Bytes} {op : PeerOp} (denied : auth.isRevoked key = true)
    (kept : op ≠ .unrevoke key) :
    (auth.apply toml path op).isRevoked key = true := by
  simp only [isRevoked, decide_eq_true_eq] at denied ⊢
  cases op with
  | reload read =>
      have same : (auth.reload toml path read).denylist = auth.denylist := by
        simp only [reload]
        split
        · split <;> rfl
        · rfl
      simp only [apply, same]
      exact denied
  | revoke key' => exact List.mem_insert_of_mem denied
  | unrevoke key' =>
      refine List.mem_filter.mpr ⟨denied, decide_eq_true fun same => kept ?_⟩
      rw [same]

theorem isRevoked_foldl {key : Bytes} {ops : List PeerOp} (denied : auth.isRevoked key = true)
    (kept : .unrevoke key ∉ ops) : (ops.foldl (apply toml path) auth).isRevoked key = true := by
  induction ops generalizing auth with
  | nil => exact denied
  | cons op ops ih =>
      have other : op ≠ .unrevoke key := fun same => kept (same ▸ List.mem_cons_self)
      exact ih (isRevoked_apply denied other) fun later => kept (List.mem_cons_of_mem _ later)

theorem denied_of_isRevoked {key : Bytes} (denied : auth.isRevoked key = true) :
    auth.authorized key = false ∧ (auth.check key).1 = false := by
  simp [authorized, check, denied]

/-! ## A server's operations -/

variable {peers : Option (List PeerEntry)} {ops : List PeerOp}

theorem after_append (left right : List PeerOp) :
    after toml path peers (left ++ right) = right.foldl (apply toml path)
    (after toml path peers left) :=
  List.foldl_append ..

theorem lastRead_concat (ops : List PeerOp) (op : PeerOp) :
    lastRead toml peers (ops ++ [op]) = match op with
      | .reload read =>
          ((fileConfig toml read).map ServerFileConfig.peers).getD (lastRead toml peers ops)
      | _ => lastRead toml peers ops := by
  rw [lastRead, List.foldl_append]
  cases op <;> rfl

/-- Every reload that finds the file missing finds the server open. -/
def MissingWhenOpen (toml : Toml) (path : String) (peers : Option (List PeerEntry))
    (ops : List PeerOp) : Prop :=
  ∀ before read later, ops = before ++ .reload read :: later → Missing read →
    (after toml path peers before).isOpenMode = true

theorem MissingWhenOpen.prefix {left right : List PeerOp}
    (present : MissingWhenOpen toml path peers (left ++ right)) :
    MissingWhenOpen toml path peers left := by
  intro before read later split
  exact present before read (later ++ right) (by rw [split, List.append_assoc, List.cons_append])

/-- An open server has no keys, and opened for the last file that was read. -/
def OpenAsRead (auth : PeerAuth) (last : Option (List PeerEntry)) : Prop :=
  auth.isOpenMode = true → auth.keys = ∅ ∧ last = none

theorem openAsRead_configured : OpenAsRead (configured peers) peers := by
  intro opened
  cases peers with
  | none => exact ⟨rfl, rfl⟩
  | some entries => cases opened

theorem setOpen_of_openAsRead {last : Option (List PeerEntry)} (asRead : OpenAsRead auth last)
    (opened : auth.isOpenMode = true) : auth.setOpen = auth := by
  obtain ⟨keys, -⟩ := asRead opened
  obtain ⟨_, denylist, _⟩ := auth
  cases keys
  cases opened
  rfl

theorem openAsRead_reload {last : Option (List PeerEntry)} (asRead : OpenAsRead auth last)
    (present : Missing read → auth.isOpenMode = true) :
    OpenAsRead (auth.reload toml path read)
    (((fileConfig toml read).map ServerFileConfig.peers).getD last) := by
  cases found : fileConfig toml read with
  | none =>
      rcases reload_of_unread found with ⟨missing, opens⟩ | ⟨-, keeps⟩
      · rw [opens, setOpen_of_openAsRead asRead (present missing)]
        exact asRead
      · rw [keeps]
        exact asRead
  | some file =>
      rw [reload_of_read found]
      intro opened
      cases listed : file.peers with
      | none => exact ⟨rfl, listed⟩
      | some entries =>
          rw [listed] at opened
          cases opened

theorem openAsRead_after (present : MissingWhenOpen toml path peers ops) :
    OpenAsRead (after toml path peers ops) (lastRead toml peers ops) := by
  induction ops using List.reverseRecOn with
  | nil => exact openAsRead_configured
  | append_singleton ops op ih =>
      have before := ih present.prefix
      rw [after_append, lastRead_concat]
      cases op with
      | reload read => exact openAsRead_reload before (present ops read [] rfl)
      | revoke key => exact before
      | unrevoke key => exact before

/-- The reloads keep to the files exactly when none that finds the file missing finds a
    server that is not open. -/
theorem reloadsSafely_iff (toml : Toml) (path : String) (peers : Option (List PeerEntry))
    (ops : List PeerOp) :
    ReloadsSafely toml path peers ops ↔ MissingWhenOpen toml path peers ops := by
  constructor
  · intro safely before read later split missing
    have kept := safely.unread before read later split (fileConfig_of_missing missing)
    have failed : fileConfig toml read = none := fileConfig_of_missing missing
    rcases reload_of_unread failed with ⟨-, opens⟩ | ⟨there, -⟩
    · rw [after_append] at kept
      have same : (after toml path peers before).setOpen = after toml path peers before :=
        opens.symm.trans kept
      rw [← same]
      rfl
    · exact absurd missing there
  · intro present
    constructor
    · intro before later split opened
      rw [split] at present
      exact (openAsRead_after present.prefix opened).2
    · intro before read later split failed
      rw [after_append]
      rcases reload_of_unread failed with ⟨missing, opens⟩ | ⟨-, keeps⟩
      · have opened := present before read later split missing
        rw [split] at present
        exact opens.trans (setOpen_of_openAsRead (openAsRead_after present.prefix) opened)
      · exact keeps
    · intro before key mid later split kept
      rw [after_append, List.foldl_cons]
      refine denied_of_isRevoked (isRevoked_foldl ?_ kept)
      simp [isRevoked, apply, revoke]

/-- A server that admits nobody is opened to everyone by a reload while the file is away. -/
theorem missing_file_opens : ¬ ∀ (toml : Toml) (path : String) (peers : Option (List PeerEntry))
      (ops : List PeerOp), ReloadsSafely toml path peers ops := by
  intro safely
  let toml : Toml := ⟨fun _ => .ok (), fun _ => .ok {}⟩
  have opened :=
    (safely toml "server.toml" (some []) [.reload (.error ⟨.notFound, "not found"⟩)]).opened
    [.reload (.error ⟨.notFound, "not found"⟩)] [] rfl rfl
  cases opened

end PeerAuth

end Rustnies
