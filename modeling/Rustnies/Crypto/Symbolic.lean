import Rustnies.Crypto.NoiseSpec

/-! # What an attacker can compute

The primitives are taken as symbolic: what an attacker can compute is a set of byte
strings that is closed under what the primitives let anyone do, and three limits say
what needs a secret. Bytes that carry marks for what is kept from the attacker are an
instance, in which runs can be evaluated.
-/

namespace Rustnies

variable {β : Type} [Byte β]

/-- The byte strings that an attacker can compute. A ciphertext that somebody else
    sealed is not among them, so a recorded message is not one the attacker builds. -/
structure Attacker (prim : NoisePrimitives β) (knows : List β → Prop) : Prop where
  literal : ∀ bs, knows (lits bs)
  append : ∀ xs ys, knows xs → knows ys → knows (xs ++ ys)
  cut : ∀ xs n, knows xs → knows (xs.take n) ∧ knows (xs.drop n)
  publicKey : ∀ secret, knows secret → knows (prim.publicKey secret)
  diffieHellman : ∀ secret peer, knows secret → knows peer → knows
    (prim.diffieHellman secret peer)
  sha256 : ∀ data, knows data → knows (prim.sha256 data)
  hkdf : ∀ salt ikm info n, knows salt → knows ikm → knows info → knows
    (prim.hkdf salt ikm info n)
  encrypt : ∀ key nonce ad message c, knows key → knows nonce → knows ad → knows message →
    prim.aead.encrypt key nonce ad message = some c → knows c
  decrypt : ∀ key nonce ad c message, knows key → knows nonce → knows ad → knows c →
    prim.aead.decrypt key nonce ad c = some message → knows message
  /-- A shared secret is computable only with one of the two secrets. -/
  shared : ∀ a b, knows (prim.diffieHellman a (prim.publicKey b)) → knows a ∨ knows b
  /-- A derived key is computable only from what it is derived from. -/
  derived : ∀ salt ikm info n i,
    i < n → knows ((prim.hkdf salt ikm info n).drop i) → knows ikm
  /-- A ciphertext is computable only with its key. -/
  sealed : ∀ key nonce ad c message, prim.aead.decrypt key nonce ad c =
    some message → knows c → knows key

/-! ## Marked bytes -/

/-- A byte, whether it is kept from the attacker, and whether it belongs to the public
    key of a secret that is. -/
structure Marked where
  val : UInt8
  secret : Bool
  honest : Bool
  deriving Repr, DecidableEq

instance : Byte Marked where
  lit b := ⟨b, false, false⟩
  val b := b.val
  xor a b := ⟨a.val ^^^ b.val, a.secret || b.secret, false⟩
  val_lit _ := rfl

namespace Marked

/-- Some byte is kept from the attacker. -/
def hidden (xs : List Marked) : Bool := xs.any Marked.secret

def total (xs : List Marked) : UInt8 := xs.foldr (fun b sum => b.val + sum) 0

def padded (xs : List Marked) : List Marked := (xs ++ lits (List.replicate 32 0)).take 32

/-- Values that are kept from the attacker, or not. -/
def marking (secret : Bool) (values : List UInt8) : List Marked :=
  values.map fun v => ⟨v, secret, false⟩

/-- The tag depends on everything that is sealed, and is hidden when the key is. -/
def tag (key nonce ad message : List Marked) : List Marked :=
  marking (hidden key) (List.replicate TAG_LEN (total key + total nonce + total ad + total message))

end Marked

/-- Primitives on marked bytes: the values add up as in `summing`, and the marks say
    what the result is computed from. -/
def NoisePrimitives.marked : NoisePrimitives Marked where
  publicKey secret := (Marked.padded secret).map fun b => ⟨b.val, false, Marked.hidden secret⟩
  diffieHellman secret peer := Marked.marking (Marked.hidden secret && peer.any Marked.honest)
    (List.zipWith (· + ·) ((Marked.padded secret).map Marked.val) (peer.map Marked.val))
  sha256 data := Marked.marking (Marked.hidden data) (List.replicate 32 (Marked.total data))
  hkdf salt ikm _ n := Marked.marking (Marked.hidden salt || Marked.hidden ikm)
    (List.replicate n (Marked.total salt + Marked.total ikm))
  aead := {
    encrypt := fun key nonce ad plaintext => some (plaintext ++ Marked.tag key nonce ad plaintext)
    decrypt := fun key nonce ad ciphertext =>
      let message := ciphertext.take (ciphertext.length - TAG_LEN)
      if ciphertext.drop (ciphertext.length - TAG_LEN) = Marked.tag key nonce ad message
        then some message else none }
  sha256_length _ := by simp [Marked.marking]
  hkdf_length _ _ _ _ := by simp [Marked.marking]

namespace Marked

theorem padded_cons (xs : List Marked) : ∃ b rest, padded xs = b :: rest :=
  List.exists_cons_of_length_pos (by simp [padded])

theorem hidden_append (xs ys : List Marked) : hidden (xs ++ ys) = (hidden xs || hidden ys) :=
  List.any_append

theorem hidden_of_subset {xs ys : List Marked} (part : xs ⊆ ys) (clear : hidden ys = false) :
    hidden xs = false := by
  simp only [hidden, List.any_eq_false] at clear ⊢
  exact fun b inside => clear b (part inside)

theorem hidden_marking_false (values : List UInt8) : hidden (marking false values) = false := by
  simp [hidden, marking]

theorem hidden_marking (secret : Bool) {values : List UInt8} (some : values ≠ []) :
    hidden (marking secret values) = secret := by
  cases values with
  | nil => exact absurd rfl some
  | cons v rest =>
      cases secret with
      | false => exact hidden_marking_false _
      | true => rfl

theorem honest_publicKey (secret : List Marked) :
    (NoisePrimitives.marked.publicKey secret).any Marked.honest = hidden secret := by
  obtain ⟨b, rest, cons⟩ := padded_cons secret
  simp only [NoisePrimitives.marked, cons]
  cases hidden secret with
  | false => simp
  | true => rfl

theorem val_publicKey (secret : List Marked) :
    (NoisePrimitives.marked.publicKey secret).map Marked.val = (padded secret).map Marked.val := by
  rw [NoisePrimitives.marked, List.map_map]
  rfl

theorem lawful : NoisePrimitives.marked.Lawful where
  publicKey_length secret := by simp [NoisePrimitives.marked, padded]
  diffieHellman_comm a b := by
    have key : ∀ secret peer, NoisePrimitives.marked.diffieHellman secret
      (NoisePrimitives.marked.publicKey peer) = marking (hidden secret && hidden peer)
          (List.zipWith (· + ·) ((padded secret).map Marked.val)
            ((padded peer).map Marked.val)) := by
      intro secret peer
      rw [← honest_publicKey peer, ← val_publicKey peer]
      rfl
    rw [key, key, Bool.and_comm, List.zipWith_comm_of_comm UInt8.add_comm]
  seals key nonce ad message := by
    have tagged : (tag key nonce ad message).length = TAG_LEN := by simp [tag, marking]
    refine ⟨message ++ tag key nonce ad message, rfl, ?_, by rw [List.length_append, tagged]⟩
    simp only [NoisePrimitives.marked, List.length_append, tagged, Nat.add_sub_cancel,
      List.take_left, List.drop_left, if_true]

theorem hidden_diffieHellman (a b : List Marked) :
    hidden (NoisePrimitives.marked.diffieHellman a (NoisePrimitives.marked.publicKey b)) =
    (hidden a && hidden b) := by
  rw [← honest_publicKey b]
  refine hidden_marking _ ?_
  obtain ⟨x, xs, front⟩ := padded_cons a
  obtain ⟨y, ys, back⟩ := padded_cons b
  rw [val_publicKey, front, back]
  exact List.cons_ne_nil _ _

theorem hidden_tag (key nonce ad message : List Marked) :
    hidden (tag key nonce ad message) = hidden key :=
  hidden_marking _ (by simp [TAG_LEN])

theorem attacker : Attacker NoisePrimitives.marked fun xs => hidden xs = false where
  literal bs := by simp [hidden, lits, Byte.lit]
  append xs ys front back := by rw [hidden_append, front, back, Bool.or_false]
  cut xs n clear :=
    ⟨hidden_of_subset (List.take_subset n xs) clear,
    hidden_of_subset (List.drop_subset n xs) clear⟩
  publicKey secret _ := by simp [NoisePrimitives.marked, hidden]
  diffieHellman secret peer clear _ := by
    simp only [NoisePrimitives.marked, clear, Bool.false_and, hidden_marking_false]
  sha256 data clear := by simp only [NoisePrimitives.marked, clear, hidden_marking_false]
  hkdf salt ikm info n saltClear clear _ := by
    simp only [NoisePrimitives.marked, saltClear, clear, Bool.or_false, hidden_marking_false]
  encrypt key nonce ad message c keyClear _ _ clear sealed := by
    cases sealed
    rw [hidden_append, clear, hidden_tag, keyClear, Bool.or_false]
  decrypt key nonce ad c message _ _ _ clear opened := by
    simp only [NoisePrimitives.marked] at opened
    split at opened
    · cases opened
      exact hidden_of_subset (List.take_subset _ _) clear
    · cases opened
  shared a b clear := by
    rw [hidden_diffieHellman, Bool.and_eq_false_iff] at clear
    exact clear
  derived salt ikm info n i inside clear := by
    simp only [NoisePrimitives.marked, marking, ← List.map_drop, List.drop_replicate] at clear
    have some : List.replicate (n - i) (total salt + total ikm) ≠ [] := by
      rw [ne_eq, List.replicate_eq_nil_iff]
      omega
    exact (Bool.or_eq_false_iff.mp ((hidden_marking _ some).symm.trans clear)).2
  sealed key nonce ad c message opened clear := by
    simp only [NoisePrimitives.marked] at opened
    split at opened
    · rename_i tagged
      have tagClear := hidden_of_subset (List.drop_subset (c.length - TAG_LEN) c) clear
      rw [tagged, hidden_tag] at tagClear
      exact tagClear
    · cases opened

end Marked

end Rustnies
