import Rustnies.Lib.Runs
import Rustnies.Lib.TokenBucket
import Rustnies.Server.State

/-! # The limit on handshake probes

The buckets of the probe limiter against the token bucket that they are meant to be. A
bucket forgets the part of an interval that has passed at each request, so it grants no
more than the token bucket, and may grant less. It is never ahead, and a bucket that is
dropped for being idle would have been full: so the limit holds in every window.
-/

namespace Rustnies

/-- The interval of one token, in the unit of `Instant`. -/
def PROBE_INTERVAL : Nat := HANDSHAKE_PROBE_INTERVAL_MS * 1000000

/-- The token bucket of the documentation. -/
abbrev ProbeReference := TokenBucket HANDSHAKE_PROBE_BURST PROBE_INTERVAL

namespace ProbeBucket

/-- The whole intervals since the last request. -/
def gained (b : ProbeBucket) (now : Instant) : Nat := (now - b.lastRefill) / PROBE_INTERVAL

theorem gained_eq (b : ProbeBucket) (now : Instant) :
    elapsedMs b.lastRefill now / HANDSHAKE_PROBE_INTERVAL_MS = b.gained now := by
  rw [elapsedMs, Nat.div_div_eq_div_mul, Nat.mul_comm]
  rfl

/-- The tokens that a request finds. -/
def tokensAt (b : ProbeBucket) (now : Instant) : Nat :=
  if 0 < b.gained now then min ((b.tokens + b.gained now % 2 ^ 32) % 2 ^ 32) HANDSHAKE_PROBE_BURST
    else b.tokens

theorem take_eq (b : ProbeBucket) (now : Instant) :
    b.take now = if 0 < b.tokensAt now then (true, ⟨now, b.tokensAt now - 1⟩)
    else (false, ⟨now, b.tokensAt now⟩) := by
  simp only [take, gained_eq, tokensAt]
  rfl

theorem tokensAt_le {b : ProbeBucket} (few : b.tokens ≤ HANDSHAKE_PROBE_BURST) (now : Instant) :
    b.tokensAt now ≤ HANDSHAKE_PROBE_BURST ∧ b.tokensAt now ≤ b.tokens + b.gained now := by
  simp only [tokensAt]
  split
  · have wrapped := Nat.mod_le (b.tokens + b.gained now % 2 ^ 32) (2 ^ 32)
    have short := Nat.mod_le (b.gained now) (2 ^ 32)
    omega
  · exact ⟨few, Nat.le_add_right _ _⟩

theorem gained_mul_le (b : ProbeBucket) (now : Instant) :
    b.gained now * PROBE_INTERVAL ≤ now - b.lastRefill :=
  Nat.div_mul_le_self ..

/-! ## Against the token bucket -/

/-- The bucket holds no more than the token bucket, which was last asked before it. -/
structure Behind (b : ProbeBucket) (r : ProbeReference) : Prop where
  few : b.tokens ≤ HANDSHAKE_PROBE_BURST
  forward : r.last ≤ b.lastRefill
  held : b.tokens * PROBE_INTERVAL ≤ r.creditAt b.lastRefill

theorem Behind.tokensAt {b : ProbeBucket} {r : ProbeReference} (behind : b.Behind r) {now : Instant}
    (later : b.lastRefill ≤ now) : b.tokensAt now * PROBE_INTERVAL ≤ r.creditAt now := by
  obtain ⟨most, earned⟩ := tokensAt_le behind.few now
  have time := b.gained_mul_le now
  refine TokenBucket.le_creditAt behind.held behind.forward later ?_ (Nat.mul_le_mul_right _ most)
  calc b.tokensAt now * PROBE_INTERVAL ≤ (b.tokens + b.gained now) * PROBE_INTERVAL :=
    Nat.mul_le_mul_right _ earned
    _ = b.tokens * PROBE_INTERVAL + b.gained now * PROBE_INTERVAL := Nat.add_mul ..
    _ ≤ b.tokens * PROBE_INTERVAL + (now - b.lastRefill) := Nat.add_le_add_left time _

theorem Behind.take {b : ProbeBucket} {r : ProbeReference} (behind : b.Behind r) {now : Instant}
    (later : b.lastRefill ≤ now) :
    ((b.take now).1 = false → (b.take now).2.Behind r) ∧
    ((b.take now).1 = true → PROBE_INTERVAL ≤ r.creditAt now ∧
      (b.take now).2.Behind ⟨r.creditAt now - PROBE_INTERVAL, now⟩) := by
  have held := behind.tokensAt later
  have most := (tokensAt_le behind.few now).1
  rw [take_eq]
  by_cases some : 0 < b.tokensAt now
  · rw [if_pos some]
    have one : PROBE_INTERVAL ≤ b.tokensAt now * PROBE_INTERVAL := Nat.le_mul_of_pos_left _ some
    refine ⟨fun denied => absurd denied (by simp), fun _ =>
      ⟨one.trans held, ?_, Nat.le_refl _, ?_⟩⟩
    · exact (Nat.sub_le ..).trans most
    · rw [TokenBucket.creditAt_self ((Nat.sub_le ..).trans (r.creditAt_le now)), Nat.sub_mul,
        Nat.one_mul]
      exact Nat.sub_le_sub_right held _
  · rw [if_neg some]
    exact ⟨fun _ => ⟨most, behind.forward.trans later, held⟩, fun granted =>
      absurd granted (by simp)⟩

end ProbeBucket

/-! ## Requests that lose no time -/

/-- A bucket, and the token bucket that meets the same requests. -/
structure MeteredProbes where
  bucket : ProbeBucket
  reference : ProbeReference

namespace MeteredProbes

def new (start : Instant) : MeteredProbes := ⟨.new start, .full start⟩

/-- A request; no request comes before the last one. -/
def step (m : MeteredProbes) (now : Instant) : Option MeteredProbes :=
  if m.bucket.lastRefill ≤ now then some ⟨(m.bucket.take now).2, (m.reference.take now).2⟩
    else none

/-- Both grant the request, or neither does. -/
def Agrees (m : MeteredProbes) (now : Instant) : Prop :=
  (m.bucket.take now).1 = (m.reference.take now).1

/-- No part of an interval is forgotten at the request: whole intervals have passed since
    the last one, or they fill the bucket. The intervals are counted in 32 bits. -/
def KeepsTime (m : MeteredProbes) (now : Instant) : Prop :=
  (PROBE_INTERVAL ∣ now - m.bucket.lastRefill ∨ HANDSHAKE_PROBE_BURST ≤ m.bucket.tokens +
    m.bucket.gained now) ∧ m.bucket.tokens + m.bucket.gained now < 2 ^ 32

/-- The token bucket holds the tokens of the bucket, and no more. -/
structure Level (m : MeteredProbes) : Prop where
  few : m.bucket.tokens ≤ HANDSHAKE_PROBE_BURST
  last : m.reference.last = m.bucket.lastRefill
  credit : m.reference.credit = m.bucket.tokens * PROBE_INTERVAL

theorem Level.creditAt {m : MeteredProbes} (level : m.Level) {now : Instant}
    (keeps : m.KeepsTime now) :
    m.reference.creditAt now = m.bucket.tokensAt now * PROBE_INTERVAL := by
  obtain ⟨whole, counted⟩ := keeps
  have passed := m.bucket.gained_mul_le now
  have tokens : m.bucket.tokensAt now = min (m.bucket.tokens + m.bucket.gained now)
    HANDSHAKE_PROBE_BURST := by
    have few := level.few
    simp only [ProbeBucket.tokensAt]
    split
    · rw [Nat.mod_eq_of_lt (by omega : m.bucket.gained now < 2 ^ 32), Nat.mod_eq_of_lt counted]
    · omega
  rw [tokens, TokenBucket.creditAt, level.credit, level.last,
    Nat.min_comm, ← Nat.mul_min_mul_right, Nat.add_mul]
  rcases whole with whole | fills
  · rw [ProbeBucket.gained, Nat.div_mul_cancel whole]
  · have filled := Nat.mul_le_mul_right PROBE_INTERVAL fills
    rw [Nat.add_mul] at filled
    rw [Nat.min_eq_right filled, Nat.min_eq_right (filled.trans (Nat.add_le_add_left passed _))]

theorem Level.take {m : MeteredProbes} (level : m.Level) {now : Instant} (keeps : m.KeepsTime now) :
    m.Agrees now ∧ Level ⟨(m.bucket.take now).2, (m.reference.take now).2⟩ := by
  have same := level.creditAt keeps
  have most := (ProbeBucket.tokensAt_le level.few now).1
  by_cases some : 0 < m.bucket.tokensAt now
  · have covered : PROBE_INTERVAL ≤ m.reference.creditAt now :=
      same ▸ Nat.le_mul_of_pos_left _ some
    rw [Agrees, ProbeBucket.take_eq, if_pos some, TokenBucket.take, if_pos covered]
    refine ⟨rfl, (Nat.sub_le ..).trans most, rfl, ?_⟩
    rw [same, Nat.sub_mul, Nat.one_mul]
  · have none : m.bucket.tokensAt now = 0 := Nat.eq_zero_of_not_pos some
    have uncovered : ¬ PROBE_INTERVAL ≤ m.reference.creditAt now := by
      rw [same, none, Nat.zero_mul]
      decide
    rw [Agrees, ProbeBucket.take_eq, if_neg some, TokenBucket.take, if_neg uncovered]
    exact ⟨rfl, most, rfl, same⟩

theorem new_level (start : Instant) : (new start).Level := ⟨Nat.le_refl _, rfl, rfl⟩

/-- A source whose requests lose no time is granted what the token bucket grants. -/
theorem takes_agree (start : Instant) {times : List Instant}
    (keeps : Runs.Along step KeepsTime (new start) times) :
    Runs.Along step Agrees (new start) times := by
  intro left now right mid split reached
  have before : Runs.Along step KeepsTime (new start) left := by
    rw [split] at keeps
    exact (Runs.along_append keeps).1
  have level : mid.Level := by
    refine Runs.invariant_along Level (fun m now m' ok stepped level => ?_) before reached
      (new_level start)
    simp only [step, Option.ite_none_right_eq_some, Option.some.injEq] at stepped
    rw [← stepped.2]
    exact (level.take ok).2
  exact (level.take (keeps left now right mid split reached)).1

/-- Requests every 200 milliseconds. -/
theorem regular_takes_agree :
    Runs.Along step Agrees (new 0) ((List.range 7).map (· * PROBE_INTERVAL)) := by
  have sound : ∀ (m : MeteredProbes) (now : Instant),
    decide (PROBE_INTERVAL ∣ now - m.bucket.lastRefill ∧ m.bucket.tokens + m.bucket.gained now <
    2 ^ 32) = true → m.KeepsTime now := by
    intro m now checked
    obtain ⟨whole, counted⟩ := of_decide_eq_true checked
    exact ⟨.inl whole, counted⟩
  exact takes_agree 0 (Runs.along_of_check sound (by decide))

/-- Requests every 100 milliseconds: the bucket is never refilled, and refuses the fifth,
    for which the token bucket has a token. -/
theorem quick_takes_disagree : ¬ ∀ times : List Instant, times.Pairwise (· ≤ ·) →
    Runs.Along step Agrees (new 0) times := by
  intro agree
  have fifth := agree ((List.range 5).map (· * 100000000)) (by decide)
    ((List.range 4).map (· * 100000000)) 400000000 [] _ (by decide) rfl
  exact absurd fifth (by unfold Agrees; decide)

end MeteredProbes

/-! ## Every window -/

namespace ProbeLimiter

/-- The limiter after a list of requests. -/
def after (p : ProbeLimiter) (calls : List (Instant × SocketAddr)) : ProbeLimiter :=
  calls.foldl (fun p call => (p.allow call.1 call.2).2) p

/-- The requests that were allowed. -/
def allowed : ProbeLimiter → List (Instant × SocketAddr) → List (Instant × SocketAddr)
  | _, [] => []
  | p, call :: calls =>
      if (p.allow call.1 call.2).1 then call :: allowed (p.allow call.1 call.2).2 calls
      else allowed (p.allow call.1 call.2).2 calls

def enter (p : ProbeLimiter) (src : SocketAddr) (b : ProbeBucket) : ProbeLimiter :=
  { p with bySource := p.bySource.insert src b }

/-- A source that the table holds asks its bucket, a new one asks a fresh bucket, and
    there is no new one when the table is full. -/
theorem allow_cases (p : ProbeLimiter) (now : Instant) (src : SocketAddr) :
    (∃ b, (p.purge now).bySource.lookup src = some b ∧
      p.allow now src = ((b.take now).1, (p.purge now).enter src (b.take now).2)) ∨
    ((p.purge now).bySource.lookup src = none ∧
      HANDSHAKE_PROBE_GLOBAL_CAP ≤ (p.purge now).bySource.keys.length ∧
      p.allow now src = (false, p.purge now)) ∨
    ((p.purge now).bySource.lookup src = none ∧ (p.purge now).bySource.keys.length <
      HANDSHAKE_PROBE_GLOBAL_CAP ∧ p.allow now src = (((ProbeBucket.new now).take now).1,
        (p.purge now).enter src ((ProbeBucket.new now).take now).2)) := by
  unfold allow
  cases found : (p.purge now).bySource.lookup src with
  | some b => exact .inl ⟨b, rfl, by simp only [found]; rfl⟩
  | none =>
      by_cases room : HANDSHAKE_PROBE_GLOBAL_CAP ≤ (p.purge now).bySource.keys.length
      · exact .inr (.inl ⟨rfl, room, by simp only [found, if_pos room]⟩)
      · exact .inr (.inr ⟨rfl, Nat.lt_of_not_le room, by simp only [found, if_neg room]; rfl⟩)

/-- What the limiter holds for a source is behind the token bucket; a source it holds
    nothing for has a full one. -/
def Covers (p : ProbeLimiter) (src : SocketAddr) (now : Instant) (r : ProbeReference) : Prop :=
  match p.bySource.lookup src with
  | some b => b.Behind r ∧ b.lastRefill ≤ now
  | none => r.last ≤ now ∧ HANDSHAKE_PROBE_BURST * PROBE_INTERVAL ≤ r.creditAt now

variable {p : ProbeLimiter} {src : SocketAddr} {now later : Instant} {r : ProbeReference}

theorem covers_some {b : ProbeBucket} (found : p.bySource.lookup src = some b) :
    p.Covers src now r ↔ b.Behind r ∧ b.lastRefill ≤ now := by
  rw [Covers, found]

theorem covers_none (absent : p.bySource.lookup src = none) :
    p.Covers src now r ↔ r.last ≤ now ∧ HANDSHAKE_PROBE_BURST * PROBE_INTERVAL ≤
    r.creditAt now := by
  rw [Covers, absent]

/-- A bucket that has been idle long enough to be dropped would be full. -/
theorem full_of_idle {b : ProbeBucket} (behind : b.Behind r)
    (idle : ¬ elapsedMs b.lastRefill now < HANDSHAKE_TOKEN_TTL_MS) :
    b.lastRefill ≤ now ∧ HANDSHAKE_PROBE_BURST * PROBE_INTERVAL ≤ r.creditAt now := by
  have long : HANDSHAKE_TOKEN_TTL_MS * 1000000 ≤ now - b.lastRefill :=
    (Nat.le_div_iff_mul_le (by decide)).mp (Nat.le_of_not_lt idle)
  have enough : HANDSHAKE_PROBE_BURST * PROBE_INTERVAL ≤ HANDSHAKE_TOKEN_TTL_MS * 1000000 :=
    by decide
  have ordered : b.lastRefill ≤ now := by
    by_contra before
    rw [Nat.sub_eq_zero_of_le (Nat.le_of_not_le before)] at long
    exact absurd long (by decide)
  refine ⟨ordered, TokenBucket.le_creditAt behind.held behind.forward ordered
    ?_ (Nat.le_refl _)⟩
  exact (enough.trans long).trans (Nat.le_add_left _ _)

theorem Covers.mono (covers : p.Covers src now r) (ordered : now ≤ later) :
    p.Covers src later r := by
  cases found : p.bySource.lookup src with
  | some b =>
      obtain ⟨behind, before⟩ := (covers_some found).mp covers
      exact (covers_some found).mpr ⟨behind, before.trans ordered⟩
  | none =>
      obtain ⟨before, full⟩ := (covers_none found).mp covers
      exact (covers_none found).mpr ⟨before.trans ordered, full.trans (r.creditAt_mono ordered)⟩

theorem Covers.purge (covers : p.Covers src now r) : (p.purge now).Covers src now r := by
  unfold ProbeLimiter.purge
  split
  · have kept := Table.lookup_retain
      (fun _ (b : ProbeBucket) => decide (elapsedMs b.lastRefill now < HANDSHAKE_TOKEN_TTL_MS))
        p.bySource src
    cases found : p.bySource.lookup src with
    | none =>
        rw [found, Option.filter_none] at kept
        exact (covers_none kept).mpr ((covers_none found).mp covers)
    | some b =>
        obtain ⟨behind, before⟩ := (covers_some found).mp covers
        rw [found] at kept
        by_cases idle : elapsedMs b.lastRefill now < HANDSHAKE_TOKEN_TTL_MS
        · rw [Option.filter_some, if_pos (decide_eq_true idle)] at kept
          exact (covers_some kept).mpr ⟨behind, before⟩
        · rw [Option.filter_some, if_neg (by simpa using idle)] at kept
          obtain ⟨ordered, full⟩ := full_of_idle behind idle
          exact (covers_none kept).mpr ⟨behind.forward.trans ordered, full⟩
  · exact covers

theorem covers_enter {b : ProbeBucket} (behind : b.Behind r) (before : b.lastRefill ≤ now) :
    (p.enter src b).Covers src now r :=
  (covers_some (AList.lookup_insert _)).mpr ⟨behind, before⟩

theorem lastRefill_take (b : ProbeBucket) (now : Instant) : (b.take now).2.lastRefill = now := by
  rw [ProbeBucket.take_eq]
  split <;> rfl

theorem Covers.own (covers : p.Covers src now r) :
    ((p.allow now src).1 = false → (p.allow now src).2.Covers src now r) ∧
    ((p.allow now src).1 = true → PROBE_INTERVAL ≤ r.creditAt now ∧
      (p.allow now src).2.Covers src now ⟨r.creditAt now - PROBE_INTERVAL, now⟩) := by
  have purged := covers.purge
  -- a bucket that is behind is asked, and entered again
  have asks : ∀ b : ProbeBucket, b.Behind r → b.lastRefill ≤ now →
      ((b.take now).1 = false → ((p.purge now).enter src (b.take now).2).Covers src now r) ∧
      ((b.take now).1 = true → PROBE_INTERVAL ≤ r.creditAt now ∧
        ((p.purge now).enter src (b.take now).2).Covers src now
          ⟨r.creditAt now - PROBE_INTERVAL, now⟩) := by
    intro b behind before
    obtain ⟨denied, granted⟩ := behind.take before
    have asked := Nat.le_of_eq (lastRefill_take b now)
    refine ⟨fun refused => covers_enter (denied refused) asked, fun allowed => ?_⟩
    obtain ⟨token, after⟩ := granted allowed
    exact ⟨token, covers_enter after asked⟩
  rcases p.allow_cases now src with ⟨b, found, answer⟩ | ⟨absent, -,
    answer⟩ | ⟨absent, -, answer⟩
  · obtain ⟨behind, before⟩ := (covers_some found).mp purged
    rw [answer]
    exact asks b behind before
  · rw [answer]
    exact ⟨fun _ => purged, fun allowed => by cases allowed⟩
  · obtain ⟨before, full⟩ := (covers_none absent).mp purged
    rw [answer]
    exact asks (.new now) ⟨Nat.le_refl _, before, full⟩ (Nat.le_refl _)

theorem Covers.other (covers : p.Covers src now r) {other : SocketAddr} (apart : other ≠ src) :
    (p.allow now other).2.Covers src now r := by
  have purged := covers.purge
  have untouched : ∀ b : ProbeBucket, ((p.purge now).enter other b).Covers src now r := by
    intro b
    rw [Covers, enter, AList.lookup_insert_ne apart.symm]
    exact purged
  rcases p.allow_cases now other with ⟨b, -, answer⟩ | ⟨-, -, answer⟩ | ⟨-, -, answer⟩
  · rw [answer]
    exact untouched _
  · rw [answer]
    exact purged
  · rw [answer]
    exact untouched _

theorem Covers.grants {calls : List (Instant × SocketAddr)} (covers : p.Covers src now r)
    (ordered : (now :: calls.map Prod.fst).Pairwise (· ≤ ·)) :
    r.Grants (((p.allowed calls).filter fun call => call.2 = src).map Prod.fst) := by
  induction calls generalizing p now r with
  | nil => trivial
  | cons call calls ih =>
      obtain ⟨time, other⟩ := call
      obtain ⟨first, rest⟩ := List.pairwise_cons.mp ordered
      have here : p.Covers src time r := covers.mono (first time List.mem_cons_self)
      by_cases own : other = src
      · subst own
        obtain ⟨denied, granted⟩ := here.own
        cases answer : (p.allow time other).1 with
        | true =>
            obtain ⟨token, after⟩ := granted answer
            simp only [allowed, answer, if_true, List.filter_cons, decide_true, List.map_cons]
            exact ⟨token, ih after rest⟩
        | false =>
            simp only [allowed, answer, Bool.false_eq_true, if_false]
            exact ih (denied answer) rest
      · have after := here.other own
        cases answer : (p.allow time other).1 with
        | true =>
            simp only [allowed, answer, if_true, List.filter_cons, own, decide_false,
              Bool.false_eq_true, if_false]
            exact ih after rest
        | false =>
            simp only [allowed, answer, Bool.false_eq_true, if_false]
            exact ih after rest

theorem allowed_sublist (calls : List (Instant × SocketAddr)) :
    (p.allowed calls).Sublist calls := by
  induction calls generalizing p with
  | nil => exact List.Sublist.refl _
  | cons call calls ih =>
      simp only [allowed]
      split
      · exact ih.cons_cons call
      · exact ih.cons call

/-! ## The size of the table -/

theorem purge_size (p : ProbeLimiter) (now : Instant) :
    (p.purge now).bySource.keys.length ≤ p.bySource.keys.length := by
  unfold purge
  split
  · simp only [AList.keys, List.keys, List.length_map]
    exact List.length_filter_le ..
  · exact Nat.le_refl _

theorem allow_size (bounded : p.bySource.keys.length ≤ HANDSHAKE_PROBE_GLOBAL_CAP) (now : Instant)
    (src : SocketAddr) :
    (p.allow now src).2.bySource.keys.length ≤ HANDSHAKE_PROBE_GLOBAL_CAP := by
  have purged := (p.purge_size now).trans bounded
  rcases p.allow_cases now src with ⟨b, found, answer⟩ | ⟨-, -, answer⟩ | ⟨-,
    room, answer⟩
  · have inside : src ∈ (p.purge now).bySource.keys :=
      AList.lookup_isSome.mp (Option.isSome_iff_exists.mpr ⟨b, found⟩)
    have some : 0 < (p.purge now).bySource.keys.length := List.length_pos_of_mem inside
    rw [answer, enter, AList.keys_insert, List.length_cons, List.length_erase_of_mem inside,
      Nat.sub_add_cancel some]
    exact purged
  · rw [answer]
    exact purged
  · have fewer := List.length_erase_le (a := src) (l := (p.purge now).bySource.keys)
    rw [answer, enter, AList.keys_insert, List.length_cons]
    omega

theorem after_size (calls : List (Instant × SocketAddr))
    (bounded : p.bySource.keys.length ≤ HANDSHAKE_PROBE_GLOBAL_CAP) :
    (p.after calls).bySource.keys.length ≤ HANDSHAKE_PROBE_GLOBAL_CAP := by
  induction calls generalizing p with
  | nil => exact bounded
  | cons call calls ih => exact ih (allow_size bounded call.1 call.2)

/-- In any window a source is allowed no more than a burst, and one probe more for each
    interval of it; and the table never outgrows its cap. -/
theorem probes_bounded (start : Instant) {calls : List (Instant × SocketAddr)}
    (ordered : (start :: calls.map Prod.fst).Pairwise (· ≤ ·)) (src : SocketAddr)
    (opens width : Instant) :
    (((ProbeLimiter.new start).allowed calls).countP fun call =>
      call.2 = src ∧ opens ≤ call.1 ∧ call.1 ≤ opens + width) ≤
        HANDSHAKE_PROBE_BURST + width / PROBE_INTERVAL ∧
    ((ProbeLimiter.new start).after calls).bySource.keys.length ≤ HANDSHAKE_PROBE_GLOBAL_CAP := by
  refine ⟨?_, after_size calls (Nat.zero_le _)⟩
  have covers : (ProbeLimiter.new start).Covers src start (.full start) :=
    (covers_none (AList.lookup_empty _)).mpr
      ⟨Nat.le_refl _, (TokenBucket.creditAt_self (Nat.le_refl _)).ge⟩
  have grants := covers.grants ordered
  have times :
    (start :: (((ProbeLimiter.new start).allowed calls).filter fun call => call.2 = src).map
    Prod.fst).Pairwise (· ≤ ·) :=
    ordered.sublist
      (((List.filter_sublist.trans (allowed_sublist calls)).map Prod.fst).cons_cons start)
  have bound := grants.countP_le times (by decide) opens width (TokenBucket.full_spent start opens)
    (Nat.zero_le _)
  rw [Nat.zero_add, List.countP_map, List.countP_filter] at bound
  refine Nat.le_trans (Nat.le_of_eq (List.countP_congr fun call _ => ?_)) bound
  simp only [Function.comp_apply, Bool.decide_and, Bool.and_eq_true, decide_eq_true_eq,
    Bool.and_comm]

/-- A source that sends every 100 milliseconds, seen for one second. -/
theorem steady_source_bounded :
    let calls := (List.range 11).map fun i => (i * 100000000, (⟨.v4 1, 1⟩ : SocketAddr))
    (((ProbeLimiter.new 0).allowed calls).countP fun call =>
      call.2 = ⟨.v4 1, 1⟩ ∧ 0 ≤ call.1 ∧ call.1 ≤ 0 + 1000000000) ≤ 9 :=
  (probes_bounded 0 (by decide) ⟨.v4 1, 1⟩ 0 1000000000).1

end ProbeLimiter

end Rustnies
