import SecureChat.Cell
import SecureChat.Vodozemac
/-!
# VodozemacStore — the persisted account and the `withAccount` calls on it

`withAccount` reads the pickle (a new account if there is none), runs its callback on the unpickled account and writes
the pickle when the callback returns normally.  The callback awaits the network or the database between two calls of the
account, and nothing keeps two `withAccount` calls apart: the store is a `Cell` of the record in the database.
-/
namespace SecureChat
namespace Olm

open Runs

variable {α κ : Type}

inductive Op (κ : Type) where
  | openAccount (identityKeys : κ × κ)
  | generateOneTimeKeys (keys : List κ)
  | generateFallbackKey (key : κ)
  | markKeysAsPublished
  | createInboundSession (key : κ)
deriving DecidableEq

def Op.generated : Op κ → List κ
  | .generateOneTimeKeys ks => ks
  | _ => []

def apply (V : Vodozemac α κ) : Op κ → Option α → Option (Option α)
  | .openAccount identityKeys, none => some (some (V.createAccount identityKeys))
  | .openAccount _, some a => some (some a)
  | _, none => none
  | .generateOneTimeKeys ks, some a => some (some (V.generateOneTimeKeys ks a))
  | .generateFallbackKey k, some a => some (some (V.generateFallbackKey k a))
  | .markKeysAsPublished, some a => some (some (V.markKeysAsPublished a))
  | .createInboundSession k, some a => (V.createInboundSession k a).map some

abbrev Store (α κ : Type) := Cell.State (Option α) (Op κ)

/-- `withAccount c` reads the pickle and opens it, `identityKeys` are those of the account it creates if there is none;
`throw` is any exception in the callback. -/
inductive Store.Event (κ : Type) where
  | withAccount (c : ℕ) (identityKeys : κ × κ)
  | act (c : ℕ) (op : Op κ)
  | throw (c : ℕ)
  | writePickle (c : ℕ)

namespace Store

def step (V : Vodozemac α κ) (s : Store α κ) : Event κ → Option (Store α κ)
  | .withAccount c identityKeys =>
    (Cell.State.step (apply V) s (.load c)).bind fun s =>
      Cell.State.step (apply V) s (.act c (.openAccount identityKeys))
  | .act c op => Cell.State.step (apply V) s (.act c op)
  | .throw c => Cell.State.step (apply V) s (.throw c)
  | .writePickle c => Cell.State.step (apply V) s (.store c)

/-- **The condition under which no update is lost**: a call writes its pickle over the record it read. -/
def Unraced (s : Store α κ) : Event κ → Prop
  | .writePickle c => ∀ base ∈ (s.calls c).base, s.record = base
  | _ => True

instance [DecidableEq α] (s : Store α κ) : ∀ e, Decidable (s.Unraced e)
  | .writePickle c => inferInstanceAs (Decidable (∀ base ∈ (s.calls c).base, s.record = base))
  | .withAccount _ _ | .act _ _ | .throw _ => inferInstanceAs (Decidable True)

variable {V : Vodozemac α κ}

theorem inv_step (r : Option α) (s : Store α κ) (e : Event κ) (s' : Store α κ) (h : Cell.Inv (apply V) r s)
    (hok : s.Unraced e) (hs : s.step V e = some s') : Cell.Inv (apply V) r s' := by
  cases e with
  | withAccount c identityKeys =>
    obtain ⟨t, ht, hs⟩ := Option.bind_eq_some_iff.1 hs
    have h1 := Cell.inv_step s (.load c) t h trivial ht
    exact Cell.inv_step t (.act c (.openAccount identityKeys)) s' h1 trivial hs
  | act c op => exact Cell.inv_step s (.act c op) s' h trivial hs
  | throw c => exact Cell.inv_step s (.throw c) s' h trivial hs
  | writePickle c => exact Cell.inv_step s (.store c) s' h hok hs

theorem serial {r : Option α} {s : Store α κ} {es : List (Event κ)}
    (hr : run (step V) (Cell.State.init r) es = some s) (hm : Meets (step V) Unraced (Cell.State.init r) es) :
    Cell.Serial (apply V) r s :=
  (Meets.invariant (Cell.Inv (apply V) r) (inv_step r) Cell.inv_init hm hr).toSerial

end Store

/-! ## What the operations do to the keys -/

section Record

variable {V : Vodozemac α κ} (hV : V.Lawful)

def recordKeys (V : Vodozemac α κ) : Option α → List κ
  | none => []
  | some a => V.oneTimeKeys a

def recordStored (V : Vodozemac α κ) : Option α → ℕ
  | none => 0
  | some a => V.storedOneTimeKeyCount a

def recordFallback (V : Vodozemac α κ) : Option α → Option κ
  | none => none
  | some a => V.fallbackKey a

theorem apply_cases {op : Op κ} {r r' : Option α} (h : apply V op r = some r') :
    (∃ i, op = .openAccount i ∧ ((r = none ∧ r' = some (V.createAccount i)) ∨ (r ≠ none ∧ r' = r))) ∨
    ∃ a a', r = some a ∧ r' = some a' ∧
      ((∃ ks, op = .generateOneTimeKeys ks ∧ a' = V.generateOneTimeKeys ks a) ∨
       (∃ k, op = .generateFallbackKey k ∧ a' = V.generateFallbackKey k a) ∨
       (op = .markKeysAsPublished ∧ a' = V.markKeysAsPublished a) ∨
       ∃ k, op = .createInboundSession k ∧ V.createInboundSession k a = some a') := by
  cases r with
  | none =>
    cases op with
    | openAccount i => cases h; exact .inl ⟨i, rfl, .inl ⟨rfl, rfl⟩⟩
    | generateOneTimeKeys ks => cases h
    | generateFallbackKey k => cases h
    | markKeysAsPublished => cases h
    | createInboundSession k => cases h
  | some a =>
    cases op with
    | openAccount i => cases h; exact .inl ⟨i, rfl, .inr ⟨nofun, rfl⟩⟩
    | generateOneTimeKeys ks => cases h; exact .inr ⟨a, _, rfl, rfl, .inl ⟨ks, rfl, rfl⟩⟩
    | generateFallbackKey k => cases h; exact .inr ⟨a, _, rfl, rfl, .inr (.inl ⟨k, rfl, rfl⟩)⟩
    | markKeysAsPublished => cases h; exact .inr ⟨a, _, rfl, rfl, .inr (.inr (.inl ⟨rfl, rfl⟩))⟩
    | createInboundSession k =>
      obtain ⟨a', ha, rfl⟩ := Option.map_eq_some_iff.1 h
      exact .inr ⟨a, a', rfl, rfl, .inr (.inr (.inr ⟨k, rfl, ha⟩))⟩

include hV

theorem recordKeys_sub {op : Op κ} {r r' : Option α} (h : apply V op r = some r') {k : κ}
    (hk : k ∈ recordKeys V r') : k ∈ recordKeys V r ∨ k ∈ op.generated := by
  rcases apply_cases h with ⟨i, rfl, ⟨rfl, rfl⟩ | ⟨-, rfl⟩⟩ | ⟨a, a', rfl, rfl, ho⟩
  · rw [recordKeys, hV.oneTimeKeys_createAccount] at hk
    cases hk
  · exact .inl hk
  · rcases ho with ⟨ks, rfl, rfl⟩ | ⟨k', rfl, rfl⟩ | ⟨rfl, rfl⟩ | ⟨k', rfl, ha⟩
    · exact hV.generated_sub hk
    · rw [recordKeys, hV.oneTimeKeys_rotated] at hk
      exact .inl hk
    · rw [recordKeys, hV.oneTimeKeys_published] at hk
      exact .inl hk
    · exact .inl ((hV.mem_consumed ha).1 hk).1

/-- A key stays in the record unless the operation consumes it, as long as there is room for what it generates. -/
theorem recordKeys_keeps {op : Op κ} {r r' : Option α} (h : apply V op r = some r')
    (hroom : recordStored V r + op.generated.length ≤ maxOneTimeKeys) {k : κ} (hop : op ≠ .createInboundSession k)
    (hk : k ∈ recordKeys V r ∨ k ∈ op.generated) : k ∈ recordKeys V r' := by
  rcases apply_cases h with ⟨i, rfl, ⟨rfl, rfl⟩ | ⟨-, rfl⟩⟩ | ⟨a, a', rfl, rfl, ho⟩
  · rcases hk with hk | hk <;> cases hk
  · exact hk.resolve_right List.not_mem_nil
  · rcases ho with ⟨ks, rfl, rfl⟩ | ⟨k', rfl, rfl⟩ | ⟨rfl, rfl⟩ | ⟨k', rfl, ha⟩
    · exact hV.generated_keeps hroom hk
    · rw [recordKeys, hV.oneTimeKeys_rotated]
      exact hk.resolve_right List.not_mem_nil
    · rw [recordKeys, hV.oneTimeKeys_published]
      exact hk.resolve_right List.not_mem_nil
    · refine (hV.mem_consumed ha).2 ⟨hk.resolve_right List.not_mem_nil, ?_⟩
      rintro rfl
      exact hop rfl

theorem recordStored_le {op : Op κ} {r r' : Option α} (h : apply V op r = some r') :
    recordStored V r' ≤ recordStored V r + op.generated.length := by
  rcases apply_cases h with ⟨i, rfl, ⟨rfl, rfl⟩ | ⟨-, rfl⟩⟩ | ⟨a, a', rfl, rfl, ho⟩
  · exact Nat.le_trans (Nat.le_of_eq (hV.stored_createAccount i)) (Nat.zero_le _)
  · exact Nat.le_refl _
  · rcases ho with ⟨ks, rfl, rfl⟩ | ⟨k', rfl, rfl⟩ | ⟨rfl, rfl⟩ | ⟨k', rfl, ha⟩
    · exact hV.stored_generated ks a
    · exact Nat.le_of_eq (hV.stored_rotated k' a)
    · exact Nat.le_of_eq (hV.stored_published a)
    · exact hV.stored_consumed ha

theorem recordFallback_eq {op : Op κ} {r r' : Option α} (h : apply V op r = some r') {k : κ}
    (hop : ∀ j, op ≠ .generateFallbackKey j) (hk : recordFallback V r = some k) : recordFallback V r' = some k := by
  rcases apply_cases h with ⟨i, rfl, ⟨rfl, rfl⟩ | ⟨-, rfl⟩⟩ | ⟨a, a', rfl, rfl, ho⟩
  · cases hk
  · exact hk
  · rcases ho with ⟨ks, rfl, rfl⟩ | ⟨k', rfl, rfl⟩ | ⟨rfl, rfl⟩ | ⟨k', rfl, ha⟩
    · exact (hV.fallbackKey_generated ks a).trans hk
    · exact absurd rfl (hop k')
    · exact (hV.fallbackKey_published a).trans hk
    · exact (hV.fallbackKey_consumed ha).trans hk

omit hV in
theorem replay_split {pre post : List (Op κ)} {op : Op κ} {r r' : Option α}
    (h : Cell.replay (apply V) (pre ++ op :: post) r = some r') :
    ∃ b b', Cell.replay (apply V) pre r = some b ∧ apply V op b = some b' ∧
      Cell.replay (apply V) post b' = some r' := by
  rw [Cell.replay_append] at h
  obtain ⟨b, hb, h⟩ := Option.bind_eq_some_iff.1 h
  obtain ⟨b', hb', h⟩ := Option.bind_eq_some_iff.1 h
  exact ⟨b, b', hb, hb', h⟩

theorem consumed_of_replay {pre post : List (Op κ)} {k : κ} {r r' : Option α}
    (h : Cell.replay (apply V) (pre ++ .createInboundSession k :: post) r = some r')
    (hpost : ∀ op ∈ post, k ∉ op.generated) : k ∉ recordKeys V r' := by
  obtain ⟨b, b', -, hb, h⟩ := replay_split h
  refine Cell.replay_invariant (p := fun r => k ∉ recordKeys V r) (fun op ho x y hx hy hk => ?_) ?_ h
  · rcases recordKeys_sub hV hy hk with hk | hk
    · exact hx hk
    · exact hpost op ho hk
  · rcases apply_cases hb with ⟨i, hi, -⟩ | ⟨a, a', rfl, rfl, ho⟩
    · cases hi
    · rcases ho with ⟨ks, hi, -⟩ | ⟨k', hi, -⟩ | ⟨hi, -⟩ | ⟨k', hi, ha⟩
      · cases hi
      · cases hi
      · cases hi
      · cases hi
        exact fun hk => ((hV.mem_consumed ha).1 hk).2 rfl

theorem stored_of_replay {ops : List (Op κ)} {r r' : Option α} (h : Cell.replay (apply V) ops r = some r') :
    recordStored V r' ≤ recordStored V r + (ops.flatMap Op.generated).length := by
  induction ops generalizing r with
  | nil => cases h; exact Nat.le_refl _
  | cons op ops ih =>
    rw [Cell.replay_cons] at h
    obtain ⟨b, hb, h⟩ := Option.bind_eq_some_iff.1 h
    have h1 := recordStored_le hV hb
    have h2 := ih h
    rw [List.flatMap_cons, List.length_append]
    omega

theorem kept_of_replay {ops : List (Op κ)} {k : κ} {r r' : Option α} (h : Cell.replay (apply V) ops r = some r')
    (hroom : recordStored V r + (ops.flatMap Op.generated).length ≤ maxOneTimeKeys)
    (hops : .createInboundSession k ∉ ops) (hk : k ∈ recordKeys V r) : k ∈ recordKeys V r' := by
  induction ops generalizing r with
  | nil => cases h; exact hk
  | cons op ops ih =>
    rw [Cell.replay_cons] at h
    obtain ⟨b, hb, h⟩ := Option.bind_eq_some_iff.1 h
    rw [List.flatMap_cons, List.length_append] at hroom
    rw [List.mem_cons, not_or] at hops
    have h1 := recordStored_le hV hb
    refine ih h (by omega) hops.2 ?_
    exact recordKeys_keeps hV hb (by omega) (Ne.symm hops.1) (.inl hk)

theorem generated_of_replay {pre post : List (Op κ)} {ks : List κ} {k : κ} {r r' : Option α}
    (h : Cell.replay (apply V) (pre ++ .generateOneTimeKeys ks :: post) r = some r')
    (hroom : recordStored V r + ((pre ++ .generateOneTimeKeys ks :: post).flatMap Op.generated).length ≤ maxOneTimeKeys)
    (hk : k ∈ ks) (hpost : .createInboundSession k ∉ post) : k ∈ recordKeys V r' := by
  obtain ⟨b, b', hpre, hb, h⟩ := replay_split h
  have h1 := stored_of_replay hV hpre
  have h2 := recordStored_le hV hb
  simp only [List.flatMap_append, List.flatMap_cons, List.length_append] at hroom
  refine kept_of_replay hV h (by omega) hpost ?_
  exact recordKeys_keeps hV hb (by omega) nofun (.inr hk)

theorem fallback_of_replay {pre post : List (Op κ)} {k : κ} {r r' : Option α}
    (h : Cell.replay (apply V) (pre ++ .generateFallbackKey k :: post) r = some r')
    (hpost : ∀ j, .generateFallbackKey j ∉ post) : recordFallback V r' = some k := by
  obtain ⟨b, b', -, hb, h⟩ := replay_split h
  refine Cell.replay_invariant (p := fun r => recordFallback V r = some k) (fun op ho x y hx hy => ?_) ?_ h
  · refine recordFallback_eq hV hy (fun j hj => ?_) hx
    exact hpost j (hj ▸ ho)
  · rcases apply_cases hb with ⟨i, hi, -⟩ | ⟨a, a', rfl, rfl, ho⟩
    · cases hi
    · rcases ho with ⟨ks, hi, -⟩ | ⟨k', hi, rfl⟩ | ⟨hi, -⟩ | ⟨k', hi, -⟩
      · cases hi
      · cases hi
        exact hV.fallbackKey_rotated k a
      · cases hi
      · cases hi

end Record

/-- **No lost update in a run whose pickles are all written over the record they were read from**: the persisted account
is the first one with the operations of exactly the completed callbacks, in the order they completed; no consumed key is
back, no generated key is missing (unless consumed, or out of the library's room) and the fallback key is the latest. -/
theorem account_run {V : Vodozemac α κ} (hV : V.Lawful) {r : Option α} {s : Store α κ} {es : List (Store.Event κ)}
    (hr : run (Store.step V) (Cell.State.init r) es = some s)
    (hm : Meets (Store.step V) Store.Unraced (Cell.State.init r) es) :
    Cell.Serial (apply V) r s ∧
    (∀ pre k post, s.history = pre ++ .createInboundSession k :: post → (∀ op ∈ post, k ∉ op.generated) →
      k ∉ recordKeys V s.record) ∧
    (∀ pre ks k post, s.history = pre ++ .generateOneTimeKeys ks :: post → k ∈ ks → .createInboundSession k ∉ post →
      recordStored V r + (s.history.flatMap Op.generated).length ≤ maxOneTimeKeys → k ∈ recordKeys V s.record) ∧
    ∀ pre k post, s.history = pre ++ .generateFallbackKey k :: post → (∀ j, .generateFallbackKey j ∉ post) →
      recordFallback V s.record = some k := by
  have h := Store.serial hr hm
  refine ⟨h, fun pre k post he hpost => ?_, fun pre ks k post he hk hpost hroom => ?_, fun pre k post he hpost => ?_⟩
  · exact consumed_of_replay hV (he ▸ h.record_eq) hpost
  · exact generated_of_replay hV (he ▸ h.record_eq) (he ▸ hroom) hk hpost
  · exact fallback_of_replay hV (he ▸ h.record_eq) hpost

def publishThenConsume : List (Store.Event ℕ) :=
  [.withAccount 0 (100, 101), .act 0 (.generateOneTimeKeys [1, 2]), .act 0 (.generateFallbackKey 50),
    .act 0 .markKeysAsPublished, .writePickle 0,
    .withAccount 1 (100, 101), .act 1 (.createInboundSession 1), .writePickle 1,
    .withAccount 2 (100, 101), .act 2 (.generateOneTimeKeys [3]), .act 2 .markKeysAsPublished, .writePickle 2]

theorem account_publishThenConsume :
    ∃ s, run (Store.step plain) (Cell.State.init none) publishThenConsume = some s ∧
      1 ∉ recordKeys plain s.record ∧ 3 ∈ recordKeys plain s.record := by
  obtain ⟨s, hs, hh⟩ : ∃ s, run (Store.step plain) (Cell.State.init none) publishThenConsume = some s ∧
      s.history = [.openAccount (100, 101), .generateOneTimeKeys [1, 2], .generateFallbackKey 50, .markKeysAsPublished,
        .openAccount (100, 101), .createInboundSession 1, .openAccount (100, 101), .generateOneTimeKeys [3],
        .markKeysAsPublished] := Runs.exists_run _ _ _ (by decide +kernel)
  obtain ⟨-, hc, hg, -⟩ := account_run plain_lawful hs (by decide +kernel)
  refine ⟨s, hs, ?_, ?_⟩
  · refine hc [.openAccount (100, 101), .generateOneTimeKeys [1, 2], .generateFallbackKey 50, .markKeysAsPublished,
      .openAccount (100, 101)] 1 [.openAccount (100, 101), .generateOneTimeKeys [3], .markKeysAsPublished]
        hh (by decide)
  · refine hg [.openAccount (100, 101), .generateOneTimeKeys [1, 2], .generateFallbackKey 50, .markKeysAsPublished,
      .openAccount (100, 101), .createInboundSession 1, .openAccount (100, 101)] [3] 3 [.markKeysAsPublished]
        hh (by decide)
      (by decide) ?_
    rw [hh]
    decide

/-- A publication that awaits the network while an inbound session consumes key 1, and an inbound session that awaits
the database while a publication generates key 4. -/
def consumeDuringPublish : List (Store.Event ℕ) :=
  [.withAccount 0 (100, 101), .act 0 (.generateOneTimeKeys [1, 2]), .act 0 .markKeysAsPublished, .writePickle 0,
    .withAccount 1 (100, 101), .act 1 (.generateOneTimeKeys [3]), .withAccount 2 (100, 101),
      .act 2 (.createInboundSession 1),
    .writePickle 2, .act 1 .markKeysAsPublished, .writePickle 1,
    .withAccount 3 (100, 101), .act 3 (.createInboundSession 2), .withAccount 4 (100, 101),
      .act 4 (.generateOneTimeKeys [4]),
    .act 4 .markKeysAsPublished, .writePickle 4, .writePickle 3]

/-- **The later of two overlapping stores undoes the earlier.** -/
theorem account_lostUpdate :
    ∃ s, run (Store.step plain) (Cell.State.init none) consumeDuringPublish = some s ∧
      s.log.map Prod.fst = [0, 2, 1, 4, 3] ∧
      (2, [.openAccount (100, 101), .createInboundSession 1]) ∈ s.log ∧ 1 ∈ recordKeys plain s.record ∧
      (4, [.openAccount (100, 101), .generateOneTimeKeys [4], .markKeysAsPublished]) ∈ s.log ∧
      .createInboundSession 4 ∉ s.history ∧ 4 ∉ recordKeys plain s.record :=
  Runs.exists_run _ _ _ (by decide +kernel)

end Olm
end SecureChat
