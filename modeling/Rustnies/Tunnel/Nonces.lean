import Rustnies.Tunnel.Pairing

/-! # Nonces of a session

The send key never changes, so a session's confidentiality rests on the nonces of
its seals. The `i`-th seal takes the sequence number `i` places after the first,
in 32 bits and without a stop: the nonces are distinct as long as at most `2^32`
packets were sealed, and the next one repeats the first.
-/

namespace Rustnies.Tunnel

variable {σ : Type} {cfg : Config σ} {t t' : Tunnel σ} {turns : List (Env × Event)}

/-- Two seals under the same nonce are the same seal. -/
def NoncesUnique (t : Tunnel σ) : Prop :=
  ∀ c ∈ t.seals, ∀ d ∈ t.seals, c.nonce = d.nonce → (c.plaintext, c.aad) =
    (d.plaintext, d.aad)

/-- The nonce of the `i`-th seal of a run from a tunnel that has sealed nothing. -/
theorem nonce_of_seal (fresh : t.seals = []) (ran : run cfg t turns = some t') {i : Nat}
    {c : SealCall} (sealed : t'.seals[i]? = some c) :
    c.nonce = makeNonce t.session.id (t.session.nextSeq + UInt32.ofNat i) cfg.sendDir := by
  obtain ⟨packets, emits⟩ := run_emits ran
  obtain ⟨calls, same, -, nonces⟩ := emits.seals
  rw [fresh, List.nil_append] at same
  exact nonces i c (same ▸ sealed)

theorem seq_injective {start : UInt32} {i j : Nat} (left : i < 2 ^ 32) (right : j < 2 ^ 32)
    (same : start + UInt32.ofNat i = start + UInt32.ofNat j) : i = j := by
  have offsets : UInt32.ofNat i = UInt32.ofNat j := (UInt32.add_right_inj start).mp same
  have values := congrArg UInt32.toNat offsets
  rwa [UInt32.toNat_ofNat', UInt32.toNat_ofNat', Nat.mod_eq_of_lt left,
    Nat.mod_eq_of_lt right] at values

/-- In every state that a run reaches with at most `2^32` seals, no nonce was used
    for two seals. -/
theorem noncesUnique_of_run (fresh : t.seals = []) (ran : run cfg t turns = some t')
    (few : t'.seals.length ≤ 2 ^ 32) : NoncesUnique t' := by
  intro c first d second same
  obtain ⟨i, inside, rfl⟩ := List.getElem_of_mem first
  obtain ⟨j, inside', rfl⟩ := List.getElem_of_mem second
  rw [nonce_of_seal fresh ran (List.getElem?_eq_getElem inside),
    nonce_of_seal fresh ran (List.getElem?_eq_getElem inside')] at same
  have seqs := (makeNonce_injective same).2
  obtain rfl := seq_injective (Nat.lt_of_lt_of_le inside few) (Nat.lt_of_lt_of_le inside' few) seqs
  rfl

/-! ## The counter wraps -/

theorem step_keepalive (cfg : Config σ) (env : Env) (running : t.exit = none) :
    ∃ t', step cfg t (env, .keepalive) = some t' ∧ t'.exit = none ∧
      t'.seals.map SealCall.plaintext = t.seals.map SealCall.plaintext ++
      [u64Bytes env.wallMicros] := by
  refine ⟨t.sendKeepalive cfg env, step_running _ running, ?_, ?_⟩
  · exact (sendKeepalive_controls t).rx.exit.trans running
  · simp only [sendKeepalive, sendPacket]
    rcases made : sealPacket cfg (t.nextHeader .keepalive).2 (t.nextHeader .keepalive).1
      (u64Bytes env.wallMicros) with ⟨_ | wire, mid⟩
    all_goals have sealed := congrArg (fun r => r.2.seals) made
    · exact (congrArg (List.map SealCall.plaintext) sealed.symm).trans List.map_append
    · simp only
      split <;> exact (congrArg (List.map SealCall.plaintext) sealed.symm).trans List.map_append

theorem run_keepalives (cfg : Config σ) (envs : List Env) (running : t.exit = none) :
    ∃ t', run cfg t (envs.map fun env => (env, .keepalive)) = some t' ∧
      t'.seals.map SealCall.plaintext =
        t.seals.map SealCall.plaintext ++ envs.map fun env => u64Bytes env.wallMicros := by
  induction envs generalizing t with
  | nil => exact ⟨t, rfl, (List.append_nil _).symm⟩
  | cons env envs ih =>
      obtain ⟨mid, stepped, running, first⟩ := step_keepalive cfg env running
      obtain ⟨t', ran, rest⟩ := ih running
      refine ⟨t', Runs.run_cons_eq_some.mpr ⟨mid, stepped, ran⟩, ?_⟩
      rw [rest, first, List.append_assoc]
      rfl

/-- `n` keepalives and one more with another timestamp: when the counter is back at
    its start after `n` steps, the last one repeats the nonce of the first. -/
theorem nonce_repeats (cfg : Config σ) (fresh : t.seals = []) (running : t.exit = none) {n : Nat}
    (positive : 0 < n) (wraps : UInt32.ofNat n = 0) {early late : Env}
    (differ : u64Bytes early.wallMicros ≠ u64Bytes late.wallMicros) :
    ∃ t', run cfg t ((List.replicate n early ++ [late]).map fun env => (env, .keepalive)) =
    some t' ∧ ¬ NoncesUnique t' := by
  obtain ⟨t', ran, plaintexts⟩ := run_keepalives cfg (List.replicate n early ++ [late]) running
  rw [fresh, List.map_nil, List.nil_append, List.map_append, List.map_replicate] at plaintexts
  have first : (t'.seals.map SealCall.plaintext)[0]? = some (u64Bytes early.wallMicros) := by
    rw [plaintexts, List.getElem?_append_left (by simpa using positive)]
    simp [positive]
  have last : (t'.seals.map SealCall.plaintext)[n]? = some (u64Bytes late.wallMicros) := by
    rw [plaintexts, List.getElem?_append_right (by simp)]
    simp
  rw [List.getElem?_map, Option.map_eq_some_iff] at first last
  obtain ⟨c, sealed, plaintext⟩ := first
  obtain ⟨d, sealed', plaintext'⟩ := last
  refine ⟨t', ran, fun unique => differ ?_⟩
  have nonces : c.nonce = d.nonce := by
    rw [nonce_of_seal fresh ran sealed, nonce_of_seal fresh ran sealed', wraps]
    rfl
  have same := unique c (List.mem_of_getElem? sealed) d (List.mem_of_getElem? sealed') nonces
  rw [← plaintext, ← plaintext']
  exact congrArg Prod.fst same

/-- After `2^32` keepalives the next one is sealed under the nonce of the first. -/
theorem keepalive_reuses_nonce : ¬ ∀ (turns : List (Env × Event)) (t' : Tunnel Unit),
    run (sampleConfig .initiatorToResponder .responderToInitiator)
    (sampleTunnel ⟨1, 2⟩) turns = some t' → NoncesUnique t' := by
  intro unique
  obtain ⟨t', ran, reused⟩ := nonce_repeats (t := sampleTunnel ⟨1, 2⟩) (n := 2 ^ 32)
    (sampleConfig .initiatorToResponder .responderToInitiator) rfl rfl (by decide) (by decide)
    (show u64Bytes (sampleEnv 0 0).wallMicros ≠ u64Bytes (sampleEnv 0 1).wallMicros by decide)
  exact reused (unique _ t' ran)

/-- A TUN packet, its two parity packets and a ping. -/
theorem noncesUnique_after_ping : ∃ t',
    run (sampleConfig .initiatorToResponder .responderToInitiator) (sampleTunnel ⟨1, 2⟩)
      [(sampleEnv 0 0, .tun [1]), (sampleEnv 0 0, .ping)] = some t' ∧ t'.seals.length = 4 ∧
    NoncesUnique t' := by
  have sealed :
    ((run (sampleConfig .initiatorToResponder .responderToInitiator) (sampleTunnel ⟨1, 2⟩)
    [(sampleEnv 0 0, .tun [1]), (sampleEnv 0 0, .ping)]).map fun t' => t'.seals.length) =
    some 4 := by
    decide +kernel
  obtain ⟨t', ran, four⟩ := Option.map_eq_some_iff.mp sealed
  exact ⟨t', ran, four, noncesUnique_of_run rfl ran (by omega)⟩

end Rustnies.Tunnel
