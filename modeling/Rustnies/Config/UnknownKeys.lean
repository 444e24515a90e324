import Rustnies.Lib.Documents
import Mathlib.Data.List.Basic

/-! # Unknown configuration keys

`config.rs`: before a configuration file is read into its struct, `warn_unknown_keys` walks
it along a table of known keys and warns of the others. The tables repeat the structs'
fields by hand; reading a struct passes over precisely the fields it does not declare.
-/

namespace Rustnies

open Documents

/-! ## The tables -/

structure SectionSchema where
  scalars : List String
  tables : List (String × SectionSchema)
  arrayTables : List (String × SectionSchema)

def TUN_SCHEMA : SectionSchema := ⟨["name", "addr", "prefix", "mtu"], [], []⟩

def NAT_SCHEMA : SectionSchema := ⟨["enabled", "out_iface"], [], []⟩

def CLIENT_NAT_SCHEMA : SectionSchema := ⟨["enabled", "source_cidr"], [], []⟩

def OBFUSCATION_SCHEMA : SectionSchema :=
  ⟨["layers", "padding_buckets", "padding_max", "timing_max_jitter_us",
    "timing_decoy_interval_ms", "timing_decoy_max_len"], [], []⟩

def PEER_SCHEMA : SectionSchema := ⟨["public_key", "name"], [], []⟩

def FEC_SCHEMA : SectionSchema := ⟨["scheme", "k", "min_m", "max_m", "initial_m"], [], []⟩

def FRAME_SCHEMA : SectionSchema := ⟨["codec"], [], []⟩

def CARRIER_SCHEMA : SectionSchema := ⟨["name"], [], []⟩

def HANDSHAKE_SCHEMA : SectionSchema := ⟨["kex", "propose"], [], []⟩

def CRYPTO_SCHEMA : SectionSchema := ⟨["aead"], [], []⟩

def TRANSPORT_SCHEMA : SectionSchema := ⟨["handshake", "data", "tag_hex"], [], []⟩

def CONGESTION_SCHEMA : SectionSchema := ⟨["algorithm"], [], []⟩

def SERVER_SCHEMA : SectionSchema where
  scalars := ["listen", "key_path", "ipc_path", "log_level", "log_file", "max_sessions_per_peer"]
  tables := [("tun", TUN_SCHEMA), ("nat", NAT_SCHEMA), ("obfuscation", OBFUSCATION_SCHEMA),
    ("fec", FEC_SCHEMA), ("carrier", CARRIER_SCHEMA), ("frame", FRAME_SCHEMA),
    ("handshake", HANDSHAKE_SCHEMA), ("crypto", CRYPTO_SCHEMA), ("transport", TRANSPORT_SCHEMA),
    ("congestion", CONGESTION_SCHEMA)]
  arrayTables := [("peers", PEER_SCHEMA)]

def CLIENT_SCHEMA : SectionSchema where
  scalars := ["server", "server_key", "key_path", "ipc_path", "route_all", "route_path",
    "reconnect", "dns_leak_protection", "dns", "kill_switch", "log_level", "log_file"]
  tables := [("tun", TUN_SCHEMA), ("nat", CLIENT_NAT_SCHEMA), ("obfuscation", OBFUSCATION_SCHEMA),
    ("fec", FEC_SCHEMA), ("carrier", CARRIER_SCHEMA), ("frame", FRAME_SCHEMA),
    ("handshake", HANDSHAKE_SCHEMA), ("crypto", CRYPTO_SCHEMA), ("transport", TRANSPORT_SCHEMA),
    ("congestion", CONGESTION_SCHEMA)]
  arrayTables := []

/-! ## The walk -/

/-- "unknown config key; ignored", with its fields. -/
structure KeyWarning where
  key : String
  path : String
  deriving Repr, DecidableEq

def fullPath (path key : String) : String := if path.isEmpty then key else path ++ "." ++ key

/-- `format!("{full_path}[{i}]")`. -/
def elementPath (path : String) (i : Nat) : String := path ++ "[" ++ toString i ++ "]"

mutual

def warnUnknownKeys : Document → String → SectionSchema → List KeyWarning
  | .table entries, path, schema => warnEntries entries path schema
  | _, _, _ => []

def warnEntries : List (String × Document) → String → SectionSchema → List KeyWarning
  | [], _, _ => []
  | (key, val) :: rest, path, schema =>
      (if schema.scalars.contains key then []
      else
        match schema.tables.lookup key with
        | some subSchema => warnUnknownKeys val (fullPath path key) subSchema
        | none =>
            match schema.arrayTables.lookup key with
            | some elemSchema =>
                match val with
                | .array arr => warnElements arr 0 (fullPath path key) elemSchema
                | _ => []
            | none => [⟨key, fullPath path key⟩]) ++ warnEntries rest path schema

def warnElements : List Document → Nat → String → SectionSchema → List KeyWarning
  | [], _, _, _ => []
  | elem :: rest, i, path, schema =>
      warnUnknownKeys elem (elementPath path i) schema ++ warnElements rest (i + 1) path schema

end

/-! ## The structs -/

inductive FileStruct where
  | serverFileConfig
  | clientFileConfig
  | tunSection
  | natSection
  | clientNatSection
  | obfuscationConfig
  | peerEntry
  | fecSection
  | frameConfig
  | carrierConfig
  | handshakeConfig
  | cryptoConfig
  | transportConfig
  | congestionConfig
  deriving Repr, DecidableEq

/-- Fields that are no structs. -/
def leaves (names : List String) : List (String × Kind FileStruct) :=
  names.map fun name => (name, .leaf)

/-- The declared fields; a field of type `Vec<T>` is a list. -/
def FileStruct.fields : FileStruct → List (String × Kind FileStruct)
  | .serverFileConfig =>
      leaves ["listen", "key_path", "ipc_path"] ++ [("peers", .list .peerEntry)] ++
        leaves ["log_level", "log_file"] ++
        [("tun", .table .tunSection), ("nat", .table .natSection),
          ("obfuscation", .table .obfuscationConfig), ("fec", .table .fecSection),
          ("carrier", .table .carrierConfig), ("frame", .table .frameConfig),
          ("handshake", .table .handshakeConfig), ("crypto", .table .cryptoConfig),
          ("transport", .table .transportConfig), ("congestion", .table .congestionConfig)] ++
        leaves ["max_sessions_per_peer"]
  | .clientFileConfig =>
      leaves ["server", "server_key", "key_path", "ipc_path", "route_all", "route_path",
          "reconnect", "dns_leak_protection", "dns", "kill_switch", "log_level", "log_file"] ++
        [("tun", .table .tunSection), ("nat", .table .clientNatSection),
          ("obfuscation", .table .obfuscationConfig), ("fec", .table .fecSection),
          ("carrier", .table .carrierConfig), ("frame", .table .frameConfig),
          ("handshake", .table .handshakeConfig), ("crypto", .table .cryptoConfig),
          ("transport", .table .transportConfig), ("congestion", .table .congestionConfig)]
  | .tunSection => leaves ["name", "addr", "prefix", "addr6", "prefix6", "mtu"]
  | .natSection => leaves ["enabled", "out_iface"]
  | .clientNatSection => leaves ["enabled", "source_cidr"]
  | .obfuscationConfig =>
      leaves ["layers", "padding_buckets", "padding_max", "timing_max_jitter_us",
          "timing_decoy_interval_ms", "timing_decoy_max_len"]
  | .peerEntry => leaves ["public_key", "name"]
  | .fecSection => leaves ["scheme", "k", "min_m", "max_m", "initial_m"]
  | .frameConfig => leaves ["codec"]
  | .carrierConfig => leaves ["name"]
  | .handshakeConfig => leaves ["kex", "propose"]
  | .cryptoConfig => leaves ["aead"]
  | .transportConfig => leaves ["handshake", "data", "tag_hex"]
  | .congestionConfig => leaves ["algorithm"]

/-- How a struct is read: by its declared fields. -/
def FileStruct.look (s : FileStruct) (key : String) : Option (Kind FileStruct) :=
  s.fields.lookup key

/-- The keys that reading a document into a struct passes over. -/
abbrev Ignored (s : FileStruct) (doc : Document) (path : KeyPath) : Prop :=
  Unknown FileStruct.look s doc path

/-! ## The walk follows its table -/

/-- How the walk takes a key: scalars first, then tables, then arrays of tables. -/
def SectionSchema.look (schema : SectionSchema) (key : String) : Option (Kind SectionSchema) :=
  if schema.scalars.contains key then some .leaf
  else
    match schema.tables.lookup key with
    | some subSchema => some (.table subSchema)
    | none => (schema.arrayTables.lookup key).map .list

/-- The warning of a key path, from a path prefix on. -/
def warning (path : String) : KeyPath → KeyWarning
  | .here key => ⟨key, fullPath path key⟩
  | .inTable key rest => warning (fullPath path key) rest
  | .inElement key i rest => warning (elementPath (fullPath path key) i) rest

theorem not_unknown_scalar {α : Type} {look : α → String → Option (Kind α)} {a : α}
    {p : KeyPath} :
    ¬ Unknown look a .scalar p := by
  intro unknown
  cases unknown

theorem not_unknown_array {α : Type} {look : α → String → Option (Kind α)} {a : α}
    {elems : List Document} {p : KeyPath} : ¬ Unknown look a (.array elems) p := by
  intro unknown
  cases unknown

mutual

theorem mem_warnUnknownKeys (doc : Document) (path : String) (schema : SectionSchema)
    {w : KeyWarning} :
    w ∈ warnUnknownKeys doc path schema ↔ ∃ p, Unknown SectionSchema.look schema doc p ∧
    warning path p = w := by
  cases doc with
  | scalar =>
      rw [warnUnknownKeys]
      · exact iff_of_false List.not_mem_nil fun ⟨p, unknown, _⟩ => not_unknown_scalar unknown
      · exact fun entries => Document.noConfusion
  | array elems =>
      rw [warnUnknownKeys]
      · exact iff_of_false List.not_mem_nil fun ⟨p, unknown, _⟩ => not_unknown_array unknown
      · exact fun entries => Document.noConfusion
  | table entries =>
      rw [warnUnknownKeys]
      exact mem_warnEntries entries path schema

theorem mem_warnEntries (entries : List (String × Document)) (path : String)
    (schema : SectionSchema) {w : KeyWarning} : w ∈ warnEntries entries path schema ↔
      ∃ p, Unknown SectionSchema.look schema (.table entries) p ∧ warning path p = w := by
  cases entries with
  | nil =>
      rw [warnEntries]
      exact iff_of_false List.not_mem_nil fun ⟨p, unknown, _⟩ => unknown_nil unknown
  | cons e rest =>
      obtain ⟨key, val⟩ := e
      have first : ∀ p, Unknown SectionSchema.look schema (.table ((key, val) :: rest)) p ↔
          Unknown SectionSchema.look schema (.table [(key, val)]) p ∨
            Unknown SectionSchema.look schema (.table rest) p := fun p => unknown_cons
      simp only [first, or_and_right, exists_or]
      rw [warnEntries, List.mem_append, mem_warnEntries rest path schema]
      apply or_congr_left
      simp only [unknown_single, SectionSchema.look]
      by_cases scalar : schema.scalars.contains key = true
      · simp only [if_pos scalar]
        simp
      · simp only [if_neg scalar]
        cases schema.tables.lookup key with
        | some subSchema =>
            simp only [mem_warnUnknownKeys val (fullPath path key) subSchema]
            simp [warning]
        | none =>
            cases schema.arrayTables.lookup key with
            | none => simp [warning, eq_comm]
            | some elemSchema =>
                cases val with
                | scalar => simp
                | table entries => simp
                | array elems =>
                    simp only [mem_warnElements elems 0 (fullPath path key) elemSchema]
                    simp [warning, and_assoc]

theorem mem_warnElements (elems : List Document) (i : Nat) (path : String) (schema : SectionSchema)
    {w : KeyWarning} : w ∈ warnElements elems i path schema ↔
      ∃ index elem p, elems[index]? = some elem ∧ Unknown SectionSchema.look schema elem p ∧
        warning (elementPath path (i + index)) p = w := by
  cases elems with
  | nil =>
      rw [warnElements]
      exact iff_of_false List.not_mem_nil fun ⟨index, elem, p, place, _⟩ => by cases place
  | cons elem rest =>
      rw [warnElements, List.mem_append, mem_warnUnknownKeys elem (elementPath path i) schema,
        mem_warnElements rest (i + 1) path schema]
      constructor
      · rintro (⟨p, unknown, same⟩ | ⟨index, other, p, place, unknown, same⟩)
        · exact ⟨0, elem, p, rfl, unknown, same⟩
        · rw [Nat.add_assoc, Nat.add_comm 1] at same
          exact ⟨index + 1, other, p, place, unknown, same⟩
      · rintro ⟨index, other, p, place, unknown, same⟩
        cases index with
        | zero =>
            cases place
            exact .inl ⟨p, unknown, same⟩
        | succ index =>
            rw [Nat.add_comm index, ← Nat.add_assoc] at same
            exact .inr ⟨index, other, p, place, unknown, same⟩

end

/-! ## The tables against the structs -/

inductive ConfigRole where
  | server
  | client
  deriving Repr, DecidableEq

namespace ConfigRole

def schema : ConfigRole → SectionSchema
  | .server => SERVER_SCHEMA
  | .client => CLIENT_SCHEMA

def fileConfig : ConfigRole → FileStruct
  | .server => .serverFileConfig
  | .client => .clientFileConfig

end ConfigRole

/-- The document sets the key in its `[tun]` section. -/
def SetsTun (doc : Document) (key : String) : Prop :=
  ∃ entries sub val, doc = .table entries ∧ ("tun", .table sub) ∈ entries ∧
    (key, val) ∈ sub

/-- The document sets none of the fields the table of `[tun]` lacks. -/
def TunPlain (doc : Document) : Prop := ∀ key ∈ ["addr6", "prefix6"], ¬ SetsTun doc key

/-- A table that does for a document what a struct does: on the whole file and on `[tun]` where
    the two fields are not set, on the other sections always. -/
inductive Mirrors : SectionSchema → FileStruct → Document → Prop where
  | root (role : ConfigRole) {doc : Document} (plain : TunPlain doc) : Mirrors role.schema
      role.fileConfig doc
  | tun {doc : Document}
      (plain : ∀ entries, doc = .table entries → ∀ key ∈ ["addr6", "prefix6"], ∀ val,
        (key, val) ∉ entries) :
      Mirrors TUN_SCHEMA .tunSection doc
  | other {names : List String} {s : FileStruct} {doc : Document}
      (fields : s.fields = leaves names) :
      Mirrors ⟨names, [], []⟩ s doc

theorem lookup_leaves (names : List String) (key : String) :
    (leaves names).lookup key = if names.contains key then some .leaf else none := by
  induction names with
  | nil => rfl
  | cons name names ih =>
      have step : (leaves (name :: names)).lookup key =
          bif key == name then some .leaf else (leaves names).lookup key := by
        rw [leaves, List.map_cons, List.lookup_cons]
        cases key == name <;> rfl
      rw [step, ih, List.contains_cons]
      cases key == name <;> rfl

theorem lookup_of_notMem {γ : Type} {entries : List (String × γ)} {key : String}
    (other : key ∉ entries.map Prod.fst) : entries.lookup key = none := by
  rw [List.lookup_eq_none_iff]
  intro e inside
  have apart : key ≠ e.1 := fun same => other (same ▸ List.mem_map_of_mem inside)
  simpa using apart

/-- The keys a table knows. -/
def SectionSchema.names (schema : SectionSchema) : List String :=
  schema.scalars ++ schema.tables.map Prod.fst ++ schema.arrayTables.map Prod.fst

theorem look_of_notMem {schema : SectionSchema} {key : String} (other : key ∉ schema.names) :
    schema.look key = none := by
  simp only [SectionSchema.names, List.mem_append, not_or] at other
  have scalar : schema.scalars.contains key = false := by
    simpa using other.1.1
  rw [SectionSchema.look, scalar, lookup_of_notMem other.1.2, lookup_of_notMem other.2]
  rfl

theorem TunPlain.inSection {entries : List (String × Document)} (plain : TunPlain (.table entries))
    {val : Document} (entry : ("tun", val) ∈ entries) : Mirrors TUN_SCHEMA .tunSection val := by
  apply Mirrors.tun
  rintro sub rfl key lacking val' set
  exact plain key lacking ⟨entries, sub, val', rfl, entry, set⟩

/-- The two whole-file tables know the fields of the two structs, with their kinds. -/
theorem root_related (role : ConfigRole) {entries : List (String × Document)}
    (plain : TunPlain (.table entries)) (key : String) (val : Document)
    (entry : (key, val) ∈ entries) :
    Related Mirrors val (role.schema.look key) (role.fileConfig.look key) := by
  have listed : ∀ name ∈ role.fileConfig.fields.map Prod.fst, name ∈ role.schema.names := by
    cases role <;> decide
  by_cases inside : key ∈ role.schema.names
  · have scalars : ∀ name ∈ role.schema.scalars, role.fileConfig.look name = some .leaf := by
      cases role <;> decide
    by_cases scalar : key ∈ role.schema.scalars
    · have leaf : role.schema.look key = some .leaf := if_pos (by simpa using scalar)
      rw [leaf, scalars key scalar]
      exact .leaf
    · -- one section after the other
      simp only [SectionSchema.names, List.append_assoc, List.mem_append, scalar,
        false_or] at inside
      cases role with
      | server =>
          simp only [ConfigRole.schema, SERVER_SCHEMA, List.map_cons, List.map_nil, List.mem_cons,
            List.not_mem_nil, or_false] at inside
          rcases inside with (rfl | rfl | rfl | rfl | rfl | rfl | rfl | rfl | rfl | rfl) | rfl
          · exact .table (plain.inSection entry)
          all_goals first
            | exact .table (.other rfl)
            | exact .list fun _ _ _ _ => .other rfl
      | client =>
          simp only [ConfigRole.schema, CLIENT_SCHEMA, List.map_cons, List.map_nil, List.mem_cons,
            List.not_mem_nil, or_false] at inside
          rcases inside with rfl | rfl | rfl | rfl | rfl | rfl | rfl | rfl | rfl | rfl
          · exact .table (plain.inSection entry)
          all_goals exact .table (.other rfl)
  · have missing : role.fileConfig.look key = none :=
      lookup_of_notMem fun field => inside (listed key field)
    rw [look_of_notMem inside, missing]
    exact .unknown

theorem mirrors_agree : Agree SectionSchema.look FileStruct.look Mirrors := by
  intro schema s entries related key val entry
  cases related with
  | root role plain => exact root_related role plain key val entry
  | tun plain =>
      have field := lookup_leaves ["name", "addr", "prefix", "addr6", "prefix6", "mtu"] key
      have lacking : ∀ name ∈ ["addr6", "prefix6"], key ≠ name := by
        rintro name listed rfl
        exact plain entries rfl key listed val entry
      have same : ["name", "addr", "prefix", "addr6", "prefix6", "mtu"].contains key =
          TUN_SCHEMA.scalars.contains key := by
        simp [TUN_SCHEMA, lacking]
      have read : FileStruct.tunSection.look key = if TUN_SCHEMA.scalars.contains key
        then some .leaf else none := by
        rw [← same]
        exact field
      rw [read, SectionSchema.look]
      split
      · exact .leaf
      · exact .unknown
  | @other names _ _ fields =>
      rw [FileStruct.look, fields, lookup_leaves, SectionSchema.look]
      split
      · exact .leaf
      · exact .unknown

/-! ## The two fields -/

theorem mem_fields {s : FileStruct} {key : String} {kind : Kind FileStruct}
    (known : s.look key = some kind) :
    (key, kind) ∈ s.fields := by
  obtain ⟨before, after, whole, _⟩ := List.lookup_eq_some_iff.mp known
  rw [whole]
  exact List.mem_append_right _ List.mem_cons_self

theorem ignored_flat {s : FileStruct} (flat : ∀ f ∈ s.fields, f.2 = .leaf) {doc : Document}
    {path : KeyPath} (ignored : Ignored s doc path) :
    ∃ key, path = .here key ∧ s.look key = none := by
  cases ignored with
  | here entry unknown => exact ⟨_, rfl, unknown⟩
  | inTable entry known inner => cases flat _ (mem_fields known)
  | inElement entry known place inner => cases flat _ (mem_fields known)

/-- What is asked of a field of a whole file: its structs have no structs, and no other one's
    keys read like those of `[tun]`. -/
def Distinct (name : String) : Kind FileStruct → Prop
  | .leaf => True
  | .table s => (∀ g ∈ s.fields, g.2 = .leaf) ∧
      ∀ key ∈ ["addr6", "prefix6"], fullPath name key = fullPath "tun" key → s = .tunSection
  | .list s => (∀ g ∈ s.fields, g.2 = .leaf) ∧ name = "peers"

instance (name : String) : (kind : Kind FileStruct) → Decidable (Distinct name kind)
  | .leaf => inferInstanceAs (Decidable True)
  | .table _ => inferInstanceAs (Decidable (_ ∧ _))
  | .list _ => inferInstanceAs (Decidable (_ ∧ _))

theorem root_distinct (role : ConfigRole) : ∀ f ∈ role.fileConfig.fields, Distinct f.1 f.2 := by
  cases role <;> decide

theorem warned_of_setsTun (role : ConfigRole) {doc : Document} {key : String}
    (lacking : key ∈ ["addr6", "prefix6"]) (sets : SetsTun doc key) :
    ⟨key, fullPath "tun" key⟩ ∈ warnUnknownKeys doc "" role.schema := by
  obtain ⟨entries, sub, val, rfl, tun, set⟩ := sets
  rw [mem_warnUnknownKeys]
  have listed : role.schema.look "tun" = some (.table TUN_SCHEMA) := by
    cases role <;> rfl
  have unknown : TUN_SCHEMA.look key = none := by
    simp only [List.mem_cons, List.not_mem_nil, or_false] at lacking
    rcases lacking with rfl | rfl <;> rfl
  exact ⟨.inTable "tun" (.here key), .inTable tun listed (.here set unknown), rfl⟩

theorem peers_path (i : Nat) {key name : String} :
    elementPath "peers" i ++ "." ++ key ≠ "tun" ++ "." ++ name := by
  intro same
  have first := congrArg (fun s => s.toList.head?) same
  simp [elementPath] at first

theorem not_ignored_tun (role : ConfigRole) {doc : Document} {key : String}
    (lacking : key ∈ ["addr6", "prefix6"]) {path : KeyPath}
    (ignored : Ignored role.fileConfig doc path) :
    warning "" path ≠ ⟨key, fullPath "tun" key⟩ := by
  intro same
  have known : FileStruct.tunSection.look key ≠ none := by
    simp only [List.mem_cons, List.not_mem_nil, or_false] at lacking
    rcases lacking with rfl | rfl <;> decide
  cases ignored with
  | here entry unknown =>
      obtain ⟨rfl, rest⟩ := KeyWarning.mk.inj same
      simp only [List.mem_cons, List.not_mem_nil, or_false] at lacking
      rcases lacking with rfl | rfl
      · exact absurd rest (by decide)
      · exact absurd rest (by decide)
  | @inTable _ _ _ name _ _ entry read inner =>
      obtain ⟨flat, apart⟩ := root_distinct role _ (mem_fields read)
      obtain ⟨k, rfl, unknown⟩ := ignored_flat flat inner
      obtain ⟨rfl, rest⟩ := KeyWarning.mk.inj same
      obtain rfl := apart k lacking rest
      exact known unknown
  | @inElement _ _ _ name _ i _ _ entry read place inner =>
      obtain ⟨flat, peers⟩ := root_distinct role _ (mem_fields read)
      obtain ⟨k, rfl, unknown⟩ := ignored_flat flat inner
      obtain ⟨rfl, rest⟩ := KeyWarning.mk.inj same
      obtain rfl : name = "peers" := peers
      have shape : fullPath (elementPath "peers" i) k = elementPath "peers" i ++ "." ++ k :=
        if_neg (by simp [elementPath])
      exact peers_path i (shape.symm.trans rest)

/-- The walk warns of exactly the keys that reading the file passes over, when and only when
    `[tun]` has neither an IPv6 address nor its prefix length. -/
theorem warnUnknownKeys_iff (role : ConfigRole) (doc : Document) :
    (∀ w, w ∈ warnUnknownKeys doc "" role.schema ↔
      ∃ path, Ignored role.fileConfig doc path ∧ warning "" path = w) ↔ TunPlain doc := by
  constructor
  · intro exact key lacking sets
    obtain ⟨path, ignored, same⟩ := (exact _).mp (warned_of_setsTun role lacking sets)
    exact not_ignored_tun role lacking ignored same
  · intro plain w
    rw [mem_warnUnknownKeys]
    simp only [unknown_iff mirrors_agree (.root role plain)]

/-- A server's `[tun]` section with an IPv6 address: it is read, and warned of as ignored. -/
theorem addr6_warned :
    warnUnknownKeys (.table [("tun", .table [("addr6", .scalar)])]) "" SERVER_SCHEMA =
    [⟨"addr6", "tun.addr6"⟩] ∧ ∀ path, ¬ Ignored .serverFileConfig
    (.table [("tun", .table [("addr6", .scalar)])]) path := by
  constructor
  · decide
  · have read : ∀ path, ¬ Ignored .tunSection (.table [("addr6", .scalar)]) path := by
      intro path ignored
      rcases unknown_single.mp ignored with ⟨unknown, _⟩ | ⟨_, _, known, _⟩ | ⟨_, _, _, _,
        _, known, _⟩
      · cases unknown
      · cases known
      · cases known
    intro path ignored
    rcases unknown_single.mp ignored with ⟨unknown, _⟩ | ⟨_, rest, known, _, inner⟩ | ⟨_,
      _, _, _, _, known, _⟩
    · cases unknown
    · cases known
      exact read rest inner
    · cases known

end Rustnies
