import Mathlib.Data.List.Basic
/-!
# Vodozemac — the account of the native library

The library is not part of the repository: an account is a parameter `α` with the calls the client makes on it, and
`Lawful` is what the library documents about them.  A public key `κ` stands for its pair; keys a call generates are its
arguments.  `plain` is an account written out over numbers, with the library's key ids and its bound on the stored keys.
-/
namespace SecureChat
namespace Olm

structure OneTimeKey (κ : Type) where
  keyId : ℕ
  publicKey : κ
deriving DecidableEq

/-- The calls; identity keys are `curve25519` and `ed25519`.  The last three fields are the private halves an account
holds, named by their public keys. -/
structure Vodozemac (α κ : Type) where
  createAccount : κ × κ → α
  identityKeys : α → κ × κ
  sign : α → κ → κ
  generateOneTimeKeys : List κ → α → α
  unpublishedOneTimeKeys : α → List (OneTimeKey κ)
  storedOneTimeKeyCount : α → ℕ
  generateFallbackKey : κ → α → α
  markKeysAsPublished : α → α
  createInboundSession : κ → α → Option α
  oneTimeKeys : α → List κ
  fallbackKey : α → Option κ
  previousFallbackKey : α → Option κ

def maxOneTimeKeys : ℕ := 5000

namespace Vodozemac

variable {α κ : Type}

def Holds (V : Vodozemac α κ) (a : α) (k : κ) : Prop :=
  k ∈ V.oneTimeKeys a ∨ V.fallbackKey a = some k ∨ V.previousFallbackKey a = some k

structure Lawful (V : Vodozemac α κ) : Prop where
  oneTimeKeys_createAccount (i : κ × κ) : V.oneTimeKeys (V.createAccount i) = []
  stored_createAccount (i : κ × κ) : V.storedOneTimeKeyCount (V.createAccount i) = 0
  fallbackKey_createAccount (i : κ × κ) : V.fallbackKey (V.createAccount i) = none
  previous_createAccount (i : κ × κ) : V.previousFallbackKey (V.createAccount i) = none
  unpublished_held {a : α} {k : OneTimeKey κ} : k ∈ V.unpublishedOneTimeKeys a → k.publicKey ∈ V.oneTimeKeys a
  generated_sub {ks : List κ} {a : α} {k : κ} :
    k ∈ V.oneTimeKeys (V.generateOneTimeKeys ks a) → k ∈ V.oneTimeKeys a ∨ k ∈ ks
  generated_keeps {ks : List κ} {a : α} {k : κ} : V.storedOneTimeKeyCount a + ks.length ≤ maxOneTimeKeys →
    k ∈ V.oneTimeKeys a ∨ k ∈ ks → k ∈ V.oneTimeKeys (V.generateOneTimeKeys ks a)
  stored_generated (ks : List κ) (a : α) :
    V.storedOneTimeKeyCount (V.generateOneTimeKeys ks a) ≤ V.storedOneTimeKeyCount a + ks.length
  fallbackKey_generated (ks : List κ) (a : α) : V.fallbackKey (V.generateOneTimeKeys ks a) = V.fallbackKey a
  previous_generated (ks : List κ) (a : α) :
    V.previousFallbackKey (V.generateOneTimeKeys ks a) = V.previousFallbackKey a
  oneTimeKeys_rotated (k : κ) (a : α) : V.oneTimeKeys (V.generateFallbackKey k a) = V.oneTimeKeys a
  stored_rotated (k : κ) (a : α) : V.storedOneTimeKeyCount (V.generateFallbackKey k a) = V.storedOneTimeKeyCount a
  unpublished_rotated (k : κ) (a : α) :
    V.unpublishedOneTimeKeys (V.generateFallbackKey k a) = V.unpublishedOneTimeKeys a
  fallbackKey_rotated (k : κ) (a : α) : V.fallbackKey (V.generateFallbackKey k a) = some k
  previous_rotated (k : κ) (a : α) : V.previousFallbackKey (V.generateFallbackKey k a) = V.fallbackKey a
  oneTimeKeys_published (a : α) : V.oneTimeKeys (V.markKeysAsPublished a) = V.oneTimeKeys a
  stored_published (a : α) : V.storedOneTimeKeyCount (V.markKeysAsPublished a) = V.storedOneTimeKeyCount a
  unpublished_published (a : α) : V.unpublishedOneTimeKeys (V.markKeysAsPublished a) = []
  fallbackKey_published (a : α) : V.fallbackKey (V.markKeysAsPublished a) = V.fallbackKey a
  previous_published (a : α) : V.previousFallbackKey (V.markKeysAsPublished a) = V.previousFallbackKey a
  consumed_held {k : κ} {a a' : α} : V.createInboundSession k a = some a' → V.Holds a k
  mem_consumed {k j : κ} {a a' : α} : V.createInboundSession k a = some a' →
    (j ∈ V.oneTimeKeys a' ↔ j ∈ V.oneTimeKeys a ∧ j ≠ k)
  stored_consumed {k : κ} {a a' : α} : V.createInboundSession k a = some a' →
    V.storedOneTimeKeyCount a' ≤ V.storedOneTimeKeyCount a
  fallbackKey_consumed {k : κ} {a a' : α} : V.createInboundSession k a = some a' → V.fallbackKey a' = V.fallbackKey a
  previous_consumed {k : κ} {a a' : α} : V.createInboundSession k a = some a' →
    V.previousFallbackKey a' = V.previousFallbackKey a

end Vodozemac

/-! ## An account written out -/

structure StoredKey (κ : Type) extends OneTimeKey κ where
  published : Bool
deriving DecidableEq

/-- The stored one-time keys are in the order of their ids, the oldest first. -/
structure Account (κ : Type) where
  identityKeys : κ × κ
  keys : List (StoredKey κ)
  nextKeyId : ℕ
  fallbackKey : Option κ
  previousFallbackKey : Option κ
deriving DecidableEq

namespace Account

variable {κ : Type}

def new (identityKeys : κ × κ) : Account κ := ⟨identityKeys, [], 0, none, none⟩

def oneTimeKeys (a : Account κ) : List κ := a.keys.map (fun k => k.publicKey)

def insertKey (a : Account κ) (k : κ) : Account κ :=
  { a with
    keys := (if maxOneTimeKeys ≤ a.keys.length then a.keys.tail else a.keys) ++ [⟨⟨a.nextKeyId, k⟩, false⟩]
    nextKeyId := a.nextKeyId + 1 }

def generateOneTimeKeys (ks : List κ) (a : Account κ) : Account κ := ks.foldl insertKey a

def unpublishedOneTimeKeys (a : Account κ) : List (OneTimeKey κ) :=
  (a.keys.filter (fun k => !k.published)).map StoredKey.toOneTimeKey

def generateFallbackKey (k : κ) (a : Account κ) : Account κ :=
  { a with fallbackKey := some k, previousFallbackKey := a.fallbackKey }

def markKeysAsPublished (a : Account κ) : Account κ :=
  { a with keys := a.keys.map (fun k => { k with published := true }) }

def createInboundSession [DecidableEq κ] (k : κ) (a : Account κ) : Option (Account κ) :=
  if k ∈ a.oneTimeKeys then some { a with keys := a.keys.filter (fun x => decide (x.publicKey ≠ k)) }
  else if a.fallbackKey = some k ∨ a.previousFallbackKey = some k then some a
  else none

theorem mem_insertKey {a : Account κ} {j k : κ} (h : j ∈ (a.insertKey k).oneTimeKeys) :
    j ∈ a.oneTimeKeys ∨ j = k := by
  simp only [oneTimeKeys, insertKey, List.map_append, List.map_singleton, List.mem_append, List.mem_singleton] at h ⊢
  rcases h with h | rfl
  · split at h
    · rw [List.map_tail] at h
      exact .inl (List.mem_of_mem_tail h)
    · exact .inl h
  · exact .inr rfl

theorem length_insertKey (a : Account κ) (k : κ) : (a.insertKey k).keys.length ≤ a.keys.length + 1 := by
  simp only [insertKey, List.length_append, List.length_singleton]
  split
  · rw [List.length_tail]
    omega
  · omega

theorem insertKey_keeps {a : Account κ} {j k : κ} (hl : a.keys.length < maxOneTimeKeys)
    (h : j ∈ a.oneTimeKeys ∨ j = k) : j ∈ (a.insertKey k).oneTimeKeys := by
  simp only [oneTimeKeys, insertKey, if_neg (Nat.not_le.2 hl), List.map_append, List.map_singleton, List.mem_append,
    List.mem_singleton]
  exact h

@[simp] theorem generateOneTimeKeys_cons (k : κ) (ks : List κ) (a : Account κ) :
    a.generateOneTimeKeys (k :: ks) = (a.insertKey k).generateOneTimeKeys ks := rfl

theorem length_generateOneTimeKeys (ks : List κ) (a : Account κ) :
    (a.generateOneTimeKeys ks).keys.length ≤ a.keys.length + ks.length := by
  induction ks generalizing a with
  | nil => exact Nat.le_refl _
  | cons k ks ih =>
    have h1 := ih (a.insertKey k)
    have h2 := a.length_insertKey k
    rw [generateOneTimeKeys_cons, List.length_cons]
    omega

theorem mem_generateOneTimeKeys {ks : List κ} {a : Account κ} {j : κ}
    (h : j ∈ (a.generateOneTimeKeys ks).oneTimeKeys) : j ∈ a.oneTimeKeys ∨ j ∈ ks := by
  induction ks generalizing a with
  | nil => exact .inl h
  | cons k ks ih =>
    rcases ih h with h | h
    · rcases mem_insertKey h with h | rfl
      · exact .inl h
      · exact .inr List.mem_cons_self
    · exact .inr (List.mem_cons_of_mem _ h)

theorem generateOneTimeKeys_keeps {ks : List κ} {a : Account κ} {j : κ}
    (hl : a.keys.length + ks.length ≤ maxOneTimeKeys) (h : j ∈ a.oneTimeKeys ∨ j ∈ ks) :
    j ∈ (a.generateOneTimeKeys ks).oneTimeKeys := by
  induction ks generalizing a with
  | nil => exact h.resolve_right List.not_mem_nil
  | cons k ks ih =>
    rw [List.length_cons] at hl
    have h2 := a.length_insertKey k
    refine ih (by omega) ?_
    rcases h with h | h
    · exact .inl (insertKey_keeps (by omega) (.inl h))
    · rcases List.mem_cons.1 h with rfl | h
      · exact .inl (insertKey_keeps (by omega) (.inr rfl))
      · exact .inr h

theorem fallback_generateOneTimeKeys (ks : List κ) (a : Account κ) :
    (a.generateOneTimeKeys ks).fallbackKey = a.fallbackKey ∧
    (a.generateOneTimeKeys ks).previousFallbackKey = a.previousFallbackKey := by
  induction ks generalizing a with
  | nil => exact ⟨rfl, rfl⟩
  | cons k ks ih => exact ih (a.insertKey k)

theorem createInboundSession_eq_some [DecidableEq κ] {k : κ} {a a' : Account κ}
    (h : a.createInboundSession k = some a') :
    (k ∈ a.oneTimeKeys ∨ a.fallbackKey = some k ∨ a.previousFallbackKey = some k) ∧
    a' = { a with keys := a.keys.filter (fun x => decide (x.publicKey ≠ k)) } := by
  unfold createInboundSession at h
  split at h
  · rename_i hk
    cases h
    exact ⟨.inl hk, rfl⟩
  · rename_i hk
    split at h
    · rename_i hf
      cases h
      refine ⟨.inr hf, ?_⟩
      have hall : a.keys.filter (fun x => decide (x.publicKey ≠ k)) = a.keys := by
        refine List.filter_eq_self.2 (fun x hx => decide_eq_true (fun he => hk ?_))
        exact List.mem_map.2 ⟨x, hx, he⟩
      rw [hall]
    · cases h

end Account

def plain : Vodozemac (Account ℕ) ℕ where
  createAccount := Account.new
  identityKeys := Account.identityKeys
  sign _ k := k + 1000
  generateOneTimeKeys := Account.generateOneTimeKeys
  unpublishedOneTimeKeys := Account.unpublishedOneTimeKeys
  storedOneTimeKeyCount a := a.keys.length
  generateFallbackKey := Account.generateFallbackKey
  markKeysAsPublished := Account.markKeysAsPublished
  createInboundSession := Account.createInboundSession
  oneTimeKeys := Account.oneTimeKeys
  fallbackKey := Account.fallbackKey
  previousFallbackKey := Account.previousFallbackKey

theorem plain_lawful : plain.Lawful where
  oneTimeKeys_createAccount _ := rfl
  stored_createAccount _ := rfl
  fallbackKey_createAccount _ := rfl
  previous_createAccount _ := rfl
  unpublished_held {a k} hk := by
    obtain ⟨x, hx, rfl⟩ := List.mem_map.1 hk
    exact List.mem_map.2 ⟨x, (List.mem_filter.1 hx).1, rfl⟩
  generated_sub := Account.mem_generateOneTimeKeys
  generated_keeps := Account.generateOneTimeKeys_keeps
  stored_generated := Account.length_generateOneTimeKeys
  fallbackKey_generated ks a := (a.fallback_generateOneTimeKeys ks).1
  previous_generated ks a := (a.fallback_generateOneTimeKeys ks).2
  oneTimeKeys_rotated _ _ := rfl
  stored_rotated _ _ := rfl
  unpublished_rotated _ _ := rfl
  fallbackKey_rotated _ _ := rfl
  previous_rotated _ _ := rfl
  oneTimeKeys_published a := by
    simp [plain, Account.oneTimeKeys, Account.markKeysAsPublished, Function.comp_def]
  stored_published a := by simp [plain, Account.markKeysAsPublished]
  unpublished_published a := by
    simp [plain, Account.unpublishedOneTimeKeys, Account.markKeysAsPublished]
  fallbackKey_published _ := rfl
  previous_published _ := rfl
  consumed_held h := (Account.createInboundSession_eq_some h).1
  mem_consumed {k j a a'} h := by
    rw [(Account.createInboundSession_eq_some h).2]
    simp only [plain, Account.oneTimeKeys, List.mem_map, List.mem_filter, decide_eq_true_eq]
    constructor
    · rintro ⟨x, ⟨hx, hne⟩, rfl⟩
      exact ⟨⟨x, hx, rfl⟩, hne⟩
    · rintro ⟨⟨x, hx, rfl⟩, hne⟩
      exact ⟨x, ⟨hx, hne⟩, rfl⟩
  stored_consumed h := by
    rw [(Account.createInboundSession_eq_some h).2]
    exact List.length_filter_le _ _
  fallbackKey_consumed h := by
    rw [(Account.createInboundSession_eq_some h).2]
    rfl
  previous_consumed h := by
    rw [(Account.createInboundSession_eq_some h).2]
    rfl

end Olm
end SecureChat
