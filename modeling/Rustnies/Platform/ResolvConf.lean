import Rustnies.Bytes
import Rustnies.Lib.Runs

/-! # The swap of `resolv.conf`

`ResolvConfGuard` in `platform/linux.rs`. A backup file that is already there is taken for
that of a crashed run and kept. A lifetime of the daemon installs the guard and drops it at
the end; any of its file operations may fail, and it may crash before any of them.
-/

namespace Rustnies

/-- `resolv.conf` and its backup, where they exist. -/
structure ResolvFiles where
  resolv : Option Bytes
  backup : Option Bytes
  deriving Repr, DecidableEq

inductive ReadOutcome where
  | done
  | failed
  | crashed
  deriving Repr, DecidableEq

inductive WriteOutcome where
  | done
  /-- Failed before the file was touched. -/
  | failed
  /-- Failed with the file cut to the first bytes. -/
  | torn (written : Nat)
  | crashed
  deriving Repr, DecidableEq

/-- How the file operations of a lifetime go, in their order. -/
structure ResolvIo where
  statBackup : ReadOutcome := .done
  readResolv : ReadOutcome := .done
  writeBackup : WriteOutcome := .done
  writeResolv : WriteOutcome := .done
  statAgain : ReadOutcome := .done
  readBackup : ReadOutcome := .done
  restore : WriteOutcome := .done
  removeBackup : ReadOutcome := .done

inductive IoResult where
  | ok
  | err
  | crash
  deriving Repr, DecidableEq

/-- `std::fs::write`. -/
def writeFile (outcome : WriteOutcome) (old : Option Bytes) (content : Bytes) :
    IoResult × Option Bytes :=
  match outcome with
  | .done => (.ok, some content)
  | .failed => (.err, old)
  | .torn written => (.err, some (content.take written))
  | .crashed => (.crash, old)

namespace ResolvConfGuard

/-- What `resolv.conf` is rewritten to. -/
def body (dnsServers : List String) : Bytes :=
  (dnsServers.foldl (fun body ns => body ++ "nameserver " ++ ns ++ "\n")
    ("# Managed by rustnies VPN — DNS routed through the tunnel.\n" ++
      "# Original backed up at the .rustnies.bak sidecar; restored on shutdown.\n")).toUTF8.toList

/-- The backup, unless there is one; what cannot be looked up counts as not there, and what
    cannot be read as empty. -/
def backUp (io : ResolvIo) (files : ResolvFiles) : IoResult × ResolvFiles :=
  if io.statBackup = .crashed then (.crash, files)
  else if io.statBackup = .done ∧ files.backup.isSome then (.ok, files)
  else if io.readResolv = .crashed then (.crash, files)
  else
    let current := (if io.readResolv = .done then files.resolv else none).getD []
    let (result, backup) := writeFile io.writeBackup files.backup current
    (result, { files with backup := backup })

def install (dnsServers : List String) (io : ResolvIo) (files : ResolvFiles) :
    IoResult × ResolvFiles :=
  if dnsServers.isEmpty then (.err, files)
  else
    match backUp io files with
    | (.ok, files) =>
        let (result, resolv) := writeFile io.writeResolv files.resolv (body dnsServers)
        (result, { files with resolv := resolv })
    | failed => failed

/-- The removal, of a guard that is installed. -/
def remove (io : ResolvIo) (files : ResolvFiles) : IoResult × ResolvFiles :=
  match io.statAgain, files.backup with
  | .crashed, _ => (.crash, files)
  | .failed, _ => (.ok, files)
  | .done, none => (.ok, files)
  | .done, some original =>
      match io.readBackup with
      | .crashed => (.crash, files)
      | .failed => (.err, files)
      | .done =>
          match writeFile io.restore files.resolv original with
          | (.ok, resolv) =>
              match io.removeBackup with
              | .done => (.ok, { resolv := resolv, backup := none })
              | .failed => (.ok, { files with resolv := resolv })
              | .crashed => (.crash, { files with resolv := resolv })
          | (result, resolv) => (result, { files with resolv := resolv })

end ResolvConfGuard

/-! ## Lifetimes -/

/-- How a lifetime ends: its install failed, it removed the guard, or neither. -/
inductive LifetimeEnd where
  | refused
  | removed
  | broken
  deriving Repr, DecidableEq

/-- Install the guard and drop it at the end. -/
def lifetime (dnsServers : List String) (io : ResolvIo) (files : ResolvFiles) :
    LifetimeEnd × ResolvFiles :=
  match ResolvConfGuard.install dnsServers io files with
  | (.err, files) => (.refused, files)
  | (.crash, files) => (.broken, files)
  | (.ok, files) =>
      match ResolvConfGuard.remove io files with
      | (.ok, files) => (.removed, files)
      | (_, files) => (.broken, files)

/-- What happens to `resolv.conf`: a lifetime of the daemon, or an edit by others. -/
inductive ResolvEvent where
  | lifetime (dnsServers : List String) (io : ResolvIo)
  | edit (resolv : Option Bytes)

/-- The files; and after lifetimes that broke off, the content of `resolv.conf` from before
    the first of them. -/
structure ResolvState where
  files : ResolvFiles
  pending : Option Bytes

namespace ResolvState

/-- A missing file has no content. -/
def content (s : ResolvState) : Bytes := s.files.resolv.getD []

/-- What a lifetime should leave. -/
def original (s : ResolvState) : Bytes := s.pending.getD s.content

def step (s : ResolvState) : ResolvEvent → Option ResolvState
  | .edit resolv => some { s with files := { s.files with resolv := resolv } }
  | .lifetime dnsServers io =>
      let (ended, files) := lifetime dnsServers io s.files
      some {
        files := files
        pending := match ended with
          | .refused => s.pending
          | .removed => none
          | .broken => some s.original }

/-- A lifetime that removed its guard leaves the original, and one that could not install
    it leaves both files alone. -/
def Restores (s : ResolvState) : ResolvEvent → Prop
  | .edit _ => True
  | .lifetime dnsServers io =>
      match lifetime dnsServers io s.files with
      | (.removed, files) => files.resolv.getD [] = s.original
      | (.refused, files) => files = s.files
      | (.broken, _) => True

/-- Others edit while no guard is installed and no backup is left. A lifetime that finds a
    backup sees it, and does not tear `resolv.conf`; one that makes a backup reads what is
    there and writes it whole, and then writes `resolv.conf`. A lifetime that comes to its
    removal sees the backup there. -/
def Sound (s : ResolvState) : ResolvEvent → Prop
  | .edit _ => s.pending = none ∧ s.files.backup = none
  | .lifetime dnsServers io => dnsServers.isEmpty = false → io.statBackup ≠ .crashed →
      if s.files.backup.isSome then
        io.statBackup = .done ∧ (∀ written, io.writeResolv ≠ .torn written) ∧
          (io.writeResolv = .done → io.statAgain ≠ .failed)
      else
        (io.readResolv = .failed → io.writeBackup = .done → s.content = []) ∧
          (io.readResolv ≠ .crashed → ∀ written, io.writeBackup ≠ .torn written) ∧
          (io.readResolv ≠ .crashed → io.writeBackup = .done →
            io.writeResolv = .crashed ∨ (io.writeResolv = .done ∧ io.statAgain ≠ .failed))

/-- The backup is the original, and without one `resolv.conf` is. -/
structure Kept (s : ResolvState) : Prop where
  backup : ∀ saved, s.files.backup = some saved → saved = s.original
  bare : s.files.backup = none → s.content = s.original

variable {s s' : ResolvState} {dnsServers : List String} {io : ResolvIo} {files : ResolvFiles}

/-! ## Installing and removing -/

/-- What a sound installation comes to: the original is in a backup that the removal will
    see, or nothing is changed, or it crashed with the original in one place or the other. -/
def Installed (s : ResolvState) (io : ResolvIo) : IoResult × ResolvFiles → Prop
  | (.ok, files) => files.backup = some s.original ∧ io.statAgain ≠ .failed
  | (.err, files) => files = s.files
  | (.crash, files) => files = s.files ∨ files.backup = some s.original

/-- What a removal comes to, from a given backup. -/
def Removed (original : Bytes) : IoResult × ResolvFiles → Prop
  | (.ok, files) =>
      files.resolv = some original ∧ (files.backup = none ∨ files.backup = some original)
  | (_, files) => files.backup = some original

theorem backUp_copies (missing : s.files.backup = none) (seen : io.statBackup ≠ .crashed)
    (alive : io.readResolv ≠ .crashed)
    (readable : io.readResolv = .failed → io.writeBackup = .done → s.content = []) :
    ∃ current, ResolvConfGuard.backUp io s.files =
        ((writeFile io.writeBackup s.files.backup current).1,
          { s.files with backup := (writeFile io.writeBackup s.files.backup current).2 }) ∧
      (io.writeBackup = .done → current = s.content) := by
  cases read : io.readResolv with
  | crashed => exact absurd read alive
  | done =>
      exact ⟨s.content,
        by simp [ResolvConfGuard.backUp, missing, seen, read, content], fun _ => rfl⟩
  | failed =>
      exact ⟨[], by simp [ResolvConfGuard.backUp, missing, seen, read],
        fun written => (readable read written).symm⟩

theorem install_spec (kept : s.Kept) (sound : s.Sound (.lifetime dnsServers io)) :
    s.Installed io (ResolvConfGuard.install dnsServers io s.files) := by
  simp only [ResolvConfGuard.install]
  split
  · rfl
  · rename_i listed
    by_cases unseen : io.statBackup = .crashed
    · have stops : ResolvConfGuard.backUp io s.files = (.crash, s.files) := by
        rw [ResolvConfGuard.backUp, if_pos unseen]
      rw [stops]
      exact .inl rfl
    have sound := sound (Bool.eq_false_iff.mpr listed) unseen
    cases saved : s.files.backup with
    | some original =>
        simp only [saved, Option.isSome_some, if_true] at sound
        obtain ⟨stat, whole, sees⟩ := sound
        have there : ResolvConfGuard.backUp io s.files = (.ok, s.files) := by
          simp [ResolvConfGuard.backUp, stat, saved]
        simp only [there]
        cases written : io.writeResolv with
        | done => exact ⟨saved.trans (congrArg _ (kept.backup original saved)), sees written⟩
        | failed => rfl
        | torn count => exact absurd written (whole count)
        | crashed => exact .inl rfl
    | none =>
        simp only [saved, Option.isSome_none, Bool.false_eq_true, if_false] at sound
        obtain ⟨readable, whole, completes⟩ := sound
        by_cases stopped : io.readResolv = .crashed
        · have stops : ResolvConfGuard.backUp io s.files = (.crash, s.files) := by
            simp [ResolvConfGuard.backUp, saved, stopped]
          rw [stops]
          exact .inl rfl
        · obtain ⟨current, copies, copied⟩ := backUp_copies saved unseen stopped readable
          rw [copies]
          cases written : io.writeBackup with
          | failed => rfl
          | torn count => exact absurd written (whole stopped count)
          | crashed => exact .inl rfl
          | done =>
              have original : some current = some s.original :=
                congrArg _ ((copied written).trans (kept.bare saved))
              simp only [writeFile]
              rcases completes stopped written with crashed | ⟨done, sees⟩
              · rw [crashed]
                exact .inr original
              · rw [done]
                exact ⟨original, sees⟩

theorem remove_spec {original : Bytes} (saved : files.backup = some original)
    (sees : io.statAgain ≠ .failed) :
    Removed original (ResolvConfGuard.remove io files) := by
  simp only [ResolvConfGuard.remove, saved]
  cases stat : io.statAgain with
  | failed => exact absurd stat sees
  | crashed => exact saved
  | done =>
      cases io.readBackup with
      | failed => exact saved
      | crashed => exact saved
      | done =>
          simp only [writeFile]
          cases io.restore with
          | failed => rfl
          | torn written => rfl
          | crashed => rfl
          | done =>
              cases io.removeBackup with
              | done => exact ⟨rfl, .inl rfl⟩
              | failed => exact ⟨rfl, .inr rfl⟩
              | crashed => rfl

/-! ## Runs -/

theorem kept_of_backup {original : Bytes} (saved : files.backup = some original) :
    Kept ⟨files, some original⟩ := by
  constructor
  · intro saved' found
    rw [saved] at found
    cases found
    rfl
  · intro missing
    rw [saved] at missing
    cases missing

theorem lifetime_spec (kept : s.Kept) (sound : s.Sound (.lifetime dnsServers io)) :
    s.Restores (.lifetime dnsServers io) ∧
      ∀ s', s.step (.lifetime dnsServers io) = some s' → s'.Kept := by
  have installs := install_spec kept sound
  simp only [Restores, step, lifetime, Option.some.injEq]
  generalize ResolvConfGuard.install dnsServers io s.files = installing at installs ⊢
  obtain ⟨_ | _ | _, files⟩ := installing
  · have removes := remove_spec installs.1 installs.2
    simp only
    generalize ResolvConfGuard.remove io files = removing at removes ⊢
    obtain ⟨_ | _ | _, files⟩ := removing
    · obtain ⟨restored, backup⟩ := removes
      refine ⟨by simp only [restored, Option.getD_some], ?_⟩
      rintro s' rfl
      refine ⟨fun saved found => ?_, fun _ => rfl⟩
      rcases backup with gone | left
      · rw [gone] at found
        cases found
      · rw [left] at found
        cases found
        simp only [original, content, restored, Option.getD_some, Option.getD_none]
    · exact ⟨trivial, by rintro s' rfl; exact kept_of_backup removes⟩
    · exact ⟨trivial, by rintro s' rfl; exact kept_of_backup removes⟩
  · have same : files = s.files := installs
    subst same
    exact ⟨rfl, by rintro s' rfl; exact kept⟩
  · refine ⟨trivial, ?_⟩
    rintro s' rfl
    rcases installs with same | saved
    · subst same
      exact ⟨kept.backup, kept.bare⟩
    · exact kept_of_backup saved

theorem kept_of_step (e : ResolvEvent) (sound : s.Sound e) (stepped : s.step e = some s')
    (kept : s.Kept) : s'.Kept := by
  cases e with
  | lifetime dnsServers io => exact (lifetime_spec kept sound).2 s' stepped
  | edit resolv =>
      cases stepped
      obtain ⟨free, bare⟩ := sound
      constructor
      · intro saved found
        rw [bare] at found
        cases found
      · intro _
        simp only [original, free, Option.getD_none]

/-- In a run whose steps are sound, every lifetime that removes its guard restores the
    original, and every failed installation leaves the files alone. -/
theorem restores_along (resolv : Option Bytes) {events : List ResolvEvent}
    (sound : Runs.Along step Sound ⟨⟨resolv, none⟩, none⟩ events) :
    Runs.Along step Restores ⟨⟨resolv, none⟩, none⟩ events := by
  intro left e right mid split reached
  have before : Runs.Along step Sound ⟨⟨resolv, none⟩, none⟩ left := by
    rw [split] at sound
    exact (Runs.along_append sound).1
  have kept : mid.Kept := by
    refine Runs.invariant_along Kept
      (fun _ e _ sound stepped kept => kept_of_step e sound stepped kept) before reached
      ⟨?_, fun _ => rfl⟩
    intro saved found
    cases found
  cases e with
  | edit resolv => trivial
  | lifetime dnsServers io => exact (lifetime_spec kept (sound left _ right mid split reached)).1

theorem sound_of_done (stat : io.statBackup = .done) (read : io.readResolv = .done)
    (backup : io.writeBackup = .done) (resolv : io.writeResolv = .done)
    (again : io.statAgain = .done) (s : ResolvState) : s.Sound (.lifetime dnsServers io) := by
  simp [Sound, stat, read, backup, resolv, again]

/-- A crash under an installed guard, and the lifetime that restores from its backup. -/
theorem crash_restored :
    Runs.Along step Restores ⟨⟨some [1], none⟩, none⟩
      [.lifetime ["1.1.1.1"] { readBackup := .crashed }, .lifetime ["1.1.1.1"] {}] := by
  refine restores_along (some [1])
    (Runs.along_cons.mpr ⟨sound_of_done rfl rfl rfl rfl rfl _, fun _ _ => ?_⟩)
  exact Runs.along_cons.mpr ⟨sound_of_done rfl rfl rfl rfl rfl _, fun _ _ => Runs.along_nil _ _⟩

/-- A file that cannot be read is emptied by a lifetime that succeeds. -/
theorem unreadable_emptied : ¬ ∀ (resolv : Option Bytes) (events : List ResolvEvent),
    Runs.Along step (fun s e => ∀ edited, e = .edit edited → s.pending = none)
    ⟨⟨resolv, none⟩, none⟩ events → Runs.Along step Restores
    ⟨⟨resolv, none⟩, none⟩ events := by
  intro restores
  have calm : Runs.Along step (fun s e => ∀ edited, e = .edit edited → s.pending = none)
    ⟨⟨some [1], none⟩, none⟩ [.lifetime ["1.1.1.1"] { readResolv := .failed }] := by
    refine Runs.along_cons.mpr ⟨fun _ other => ?_, fun _ _ => Runs.along_nil _ _⟩
    cases other
  have restored : ([] : Bytes) = [1] := restores (some [1]) _ calm [] _ [] _ rfl rfl
  cases restored

end ResolvState

end Rustnies
