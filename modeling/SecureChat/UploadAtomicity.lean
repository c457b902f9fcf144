import Mathlib.Data.List.Nodup
import SecureChat.PreKeyPending
import SecureChat.UploadSteps
/-!
# UploadAtomicity — a rejected upload has written nothing, an accepted one has stored all its parts

The route commits the identity, the fallback key and the one-time keys in transactions of their own, so a refusal of a
later one finds the earlier ones stored.  `Watched` records which uploads have changed the account and what the account
has held since each of them began.  While no upload that has changed the account is refused, a rejected one can be
taken out of the run (`upload_run`).
-/
namespace SecureChat
namespace PreKeys

open Runs

variable {ι κ : Type} {F : Format ι κ}

inductive Part (ι κ : Type) where
  | identity (identityKey signingKey : κ)
  | fallback (key : FallbackKey κ)
  | oneTimeKey (key : OneTimeKey ι κ)

def PreKeyUploadRequest.parts (r : PreKeyUploadRequest ι κ) : List (Part ι κ) :=
  .identity r.olmIdentityKey r.olmSigningKey ::
    (r.olmFallbackKey.toList.map .fallback ++ r.olmOneTimeKeys.map .oneTimeKey)

def Account.Holds (a : Account ι κ) : Part ι κ → Prop
  | .identity identityKey signingKey =>
    a.olmIdentityKey.map Tagged.value = some identityKey ∧ a.signingPublicKey.map Tagged.value = some signingKey
  | .fallback key => a.fallbackKey.map Tagged.value = some key
  | .oneTimeKey key => key ∈ a.oneTimeKeys.map Tagged.value

/-- The server, and as ghosts: which uploads have changed the account, what each was asked to store, and what the
account has held since it began. -/
structure Watched (ι κ : Type) where
  server : State ι κ
  changed : ℕ → Bool
  request : ℕ → Option (PreKeyUploadRequest ι κ)
  held : ℕ → Part ι κ → Prop

/-- The request that an event begins, for upload `i`. -/
def Event.asks (i : ℕ) : Event ι κ → Option (PreKeyUploadRequest ι κ)
  | .upload j r _ => if j = i then some r else none
  | _ => none

namespace Watched

variable [DecidableEq ι] [DecidableEq κ]

omit [DecidableEq ι] [DecidableEq κ] in
def init : Watched ι κ := ⟨State.init, fun _ => false, fun _ => none, fun _ _ => False⟩

def step (F : Format ι κ) (w : Watched ι κ) (e : Event ι κ) : Option (Watched ι κ) :=
  (State.step F w.server e).map fun s =>
    { server := s
      changed i := w.changed i || (decide (e.call = some i) && decide (s.account ≠ w.server.account))
      request i := (e.asks i).or (w.request i)
      held i p := (e.asks i = none ∧ w.held i p) ∨ s.account.Holds p }

/-- **The condition under which uploads are atomic**: an upload that has changed the account is not refused and does not
fail.  So the epoch it was authenticated with is still the account's at each of its later transactions, and no key id of
its is stored with other material. -/
def Unrefused (w : Watched ι κ) : Event ι κ → Prop
  | .advance i => w.changed i = true →
    match w.server.uploads i with
    | .fallback r epoch => r.olmFallbackKey ≠ none → w.server.account.guard epoch = true
    | .locking keys epoch => keys ≠ [] → w.server.account.guard epoch = true
    | .checking keys => w.server.account.conflict keys = none
    | _ => True
  | .abort i => w.changed i = false
  | _ => True

instance (w : Watched ι κ) : ∀ e, Decidable (w.Unrefused e)
  | .advance i =>
    have : Decidable (match w.server.uploads i with
      | .fallback r epoch => r.olmFallbackKey ≠ none → w.server.account.guard epoch = true
      | .locking keys epoch => keys ≠ [] → w.server.account.guard epoch = true
      | .checking keys => w.server.account.conflict keys = none
      | _ => True) :=
      match w.server.uploads i with
      | .fallback r epoch => inferInstanceAs (Decidable (r.olmFallbackKey ≠ none → w.server.account.guard epoch = true))
      | .locking keys epoch => inferInstanceAs (Decidable (keys ≠ [] → w.server.account.guard epoch = true))
      | .checking keys => inferInstanceAs (Decidable (w.server.account.conflict keys = none))
      | .idle | .counting .. | .identity .. | .inserting .. | .done _ => inferInstanceAs (Decidable True)
    inferInstanceAs (Decidable (w.changed i = true → _))
  | .abort i => inferInstanceAs (Decidable (w.changed i = false))
  | .upload .. | .miscount _ | .fetch _ | .read .. | .fail _ | .replace _ | .rotate => inferInstanceAs (Decidable True)

end Watched

def Upload.early : Upload ι κ → Bool
  | .idle | .counting _ _ | .identity _ _ => true
  | _ => false

/-- The sizes that `hasSaneKeyMaterial` has checked, for what is still to be written. -/
def Upload.Sane (F : Format ι κ) : Upload ι κ → Prop
  | .counting r _ | .identity r _ | .fallback r _ =>
    (∀ key, r.olmFallbackKey = some key → F.size key.publicKey = keyLength ∧ F.size key.signature = signatureLength) ∧
      (∀ k ∈ r.olmOneTimeKeys, F.size k.publicKey = keyLength) ∧ (r.olmOneTimeKeys.map OneTimeKey.keyId).Nodup
  | .locking keys _ => (∀ k ∈ keys, F.size k.publicKey = keyLength) ∧ (keys.map OneTimeKey.keyId).Nodup
  | .checking keys => (keys.map OneTimeKey.keyId).Nodup
  | _ => True

/-- How far an upload of `r` has come: what it has written was held. -/
def Upload.Stores (held : Part ι κ → Prop) (a : Account ι κ) (r : PreKeyUploadRequest ι κ) : Upload ι κ → Prop
  | .counting r' _ | .identity r' _ => r' = r
  | .fallback r' _ => r' = r ∧ held (.identity r.olmIdentityKey r.olmSigningKey)
  | .locking keys _ | .checking keys =>
    keys = r.olmOneTimeKeys ∧ ∀ p ∈ r.parts, held p ∨ p ∈ r.olmOneTimeKeys.map Part.oneTimeKey
  | .inserting rest rows =>
    (r.olmOneTimeKeys.map OneTimeKey.keyId).Nodup ∧
    (∀ p ∈ r.parts, held p ∨ p ∈ rest.map Part.oneTimeKey ∨ p ∈ rows.map fun row => Part.oneTimeKey row.value) ∧
    (∀ k ∈ rest, k ∈ r.olmOneTimeKeys) ∧ (∀ row ∈ rows, row.value ∈ r.olmOneTimeKeys) ∧
    ∀ row ∈ a.oneTimeKeys, ∀ k ∈ r.olmOneTimeKeys, k.keyId = row.value.keyId → row.value = k
  | .done .ok => ∀ p ∈ r.parts, held p
  | .idle | .done _ => True

theorem Upload.Stores.mono {held held' : Part ι κ → Prop} {a a' : Account ι κ} {r : PreKeyUploadRequest ι κ}
    {u : Upload ι κ} (h : u.Stores held a r) (hheld : ∀ p, held p → held' p)
    (ha : u.holds = true → ∀ row ∈ a'.oneTimeKeys, row ∈ a.oneTimeKeys) : u.Stores held' a' r := by
  cases u with
  | idle => trivial
  | counting r' e => exact h
  | identity r' e => exact h
  | fallback r' e => exact ⟨h.1, hheld _ h.2⟩
  | locking keys e => exact ⟨h.1, fun p hp => (h.2 p hp).imp (hheld p) id⟩
  | checking keys => exact ⟨h.1, fun p hp => (h.2 p hp).imp (hheld p) id⟩
  | inserting rest rows =>
    obtain ⟨hnodup, hparts, hrest, hrows, hpool⟩ := h
    exact ⟨hnodup, fun p hp => (hparts p hp).imp (hheld p) id, hrest, hrows,
      fun row hrow => hpool row (ha rfl row hrow)⟩
  | done answer =>
    cases answer with
    | ok => exact fun p hp => hheld p (h p hp)
    | _ => trivial

theorem Upload.stores_done {held : Part ι κ → Prop} {a : Account ι κ} {r : PreKeyUploadRequest ι κ} {answer : Answer ι}
    (h : answer ≠ .ok) : (Upload.done answer).Stores held a r := by
  cases answer with
  | ok => exact absurd rfl h
  | _ => trivial

section Sanity

variable [DecidableEq ι] [DecidableEq κ] {s s' : State ι κ} {i : ℕ}

omit [DecidableEq κ] in
theorem PreKeyUploadRequest.sane {r : PreKeyUploadRequest ι κ} (h : r.hasSaneKeyMaterial F = true) (e : ℕ) :
    (Upload.counting r e).Sane F := by
  simp only [hasSaneKeyMaterial, Bool.and_eq_true, decide_eq_true_eq, List.all_eq_true] at h
  obtain ⟨⟨⟨-, hnodup⟩, hkeys⟩, hfallback⟩ := h
  refine ⟨fun key hkey => ?_, fun k hk => (hkeys k hk).2, hnodup⟩
  rw [hkey] at hfallback
  simpa using hfallback

theorem Advance.sane {u : Upload ι κ} {a : Account ι κ} {l : Option ℕ} (h : State.Advance F s i u a l)
    (hs : (s.uploads i).Sane F) : u.Sane F := by
  cases h with
  | counted hu =>
    rw [hu] at hs
    exact hs
  | identified hu =>
    rw [hu] at hs
    exact hs
  | noFallback hu hr =>
    rw [hu] at hs
    exact hs.2
  | fallbackWritten hu hr =>
    rw [hu] at hs
    exact hs.2
  | locked hu hl =>
    rw [hu] at hs
    exact hs.2
  | _ => trivial

theorem State.pool_subset (hv : s.Inv) (hh : (s.uploads i).holds = true) {e : Event ι κ} (he : e.call ≠ some i)
    (hs : State.step F s e = some s') : ∀ row ∈ s'.account.oneTimeKeys, row ∈ s.account.oneTimeKeys := by
  have hlock : s.lock = some i := hv.locked i hh
  cases State.step_cases hs with
  | upload | abort | miscount | fetch | fail => exact fun _ h => h
  | advance hadv =>
    cases hadv with
    | committed hu =>
      have hj := hv.locked _ (by rw [hu]; rfl)
      rw [hlock] at hj
      exact absurd hj.symm he
    | _ => exact fun _ h => h
  | read hread =>
    cases hread with
    | consume ik sk row hj hr => exact fun r hr => (List.mem_filter.1 hr).1
    | _ => exact fun _ h => h
  | replace hl | rotate hl =>
    rw [hlock] at hl
    cases hl

theorem State.uploads_of_ne {e : Event ι κ} (he : e.call ≠ some i) (hs : State.step F s e = some s') :
    s'.uploads i = s.uploads i := by
  have hset : ∀ {j : ℕ} (u : Upload ι κ), some j ≠ some i → Function.update s.uploads j u i = s.uploads i :=
    fun u hj => Function.update_of_ne (fun h => hj (congrArg some h.symm)) _ _
  cases State.step_cases hs with
  | upload | abort | advance | miscount => exact hset _ he
  | fetch | fail | replace | rotate => rfl
  | read hread =>
    cases hread with
    | _ => rfl

omit [DecidableEq κ] in
theorem exists_of_hasKeyId {keyId : ι} {rows : List (Tagged (OneTimeKey ι κ))}
    (h : Account.hasKeyId keyId rows = true) : ∃ row ∈ rows, row.value.keyId = keyId := by
  obtain ⟨row, hrow, hid⟩ := List.any_eq_true.1 h
  exact ⟨row, hrow, of_decide_eq_true hid⟩

theorem eq_of_conflict_none {keys : List (OneTimeKey ι κ)} {a : Account ι κ} (h : a.conflict keys = none)
    {row : Tagged (OneTimeKey ι κ)} (hrow : row ∈ a.oneTimeKeys) {k : OneTimeKey ι κ} (hk : k ∈ keys)
    (hid : k.keyId = row.value.keyId) : row.value = k := by
  have hnone := List.find?_eq_none.1 (Option.map_eq_none_iff.1 h) row hrow
  have hpub : k.publicKey = row.value.publicKey := by
    by_contra hne
    refine hnone (List.any_eq_true.2 ⟨k, hk, ?_⟩)
    rw [Bool.and_eq_true]
    exact ⟨decide_eq_true hid, decide_eq_true hne⟩
  cases k
  cases hv : row.value
  rw [hv] at hid hpub
  cases hid
  cases hpub
  rfl

theorem Advance.stores {held : Part ι κ → Prop} {r : PreKeyUploadRequest ι κ} {u : Upload ι κ} {a : Account ι κ}
    {l : Option ℕ} (h : State.Advance F s i u a l) (hsane : (s.uploads i).Sane F)
    (hst : (s.uploads i).Stores held s.account r) : u.Stores (fun p => held p ∨ a.Holds p) a r := by
  cases h with
  | full | malformed | keysRefused | conflict => trivial
  | identityRefused hu hne | fallbackRefused hu _ hne =>
    exact Upload.stores_done hne
  | counted hu =>
    rw [hu] at hst
    exact hst
  | identified hu =>
    rw [hu] at hst
    obtain rfl : _ = r := hst
    exact ⟨rfl, .inr ⟨rfl, rfl⟩⟩
  | noFallback hu hr =>
    rw [hu] at hst
    obtain ⟨rfl, hid⟩ := hst
    refine ⟨rfl, fun p hp => ?_⟩
    rw [PreKeyUploadRequest.parts, hr] at hp
    rcases List.mem_cons.1 hp with rfl | hp
    · exact .inl (.inl hid)
    · exact .inr hp
  | fallbackWritten hu hr =>
    rw [hu] at hst
    obtain ⟨rfl, hid⟩ := hst
    refine ⟨rfl, fun p hp => ?_⟩
    rw [PreKeyUploadRequest.parts, hr] at hp
    rcases List.mem_cons.1 hp with rfl | hp
    · exact .inl (.inl hid)
    · rcases List.mem_append.1 hp with hp | hp
      · rw [Option.toList_some, List.map_singleton, List.mem_singleton] at hp
        subst hp
        exact .inl (.inr rfl)
      · exact .inr hp
  | noKeys hu =>
    rw [hu] at hst
    obtain ⟨hkeys, hparts⟩ := hst
    intro p hp
    rcases hparts p hp with hheld | hkey
    · exact .inl hheld
    · rw [← hkeys] at hkey
      cases hkey
  | locked hu =>
    rw [hu] at hst
    exact ⟨hst.1, fun p hp => (hst.2 p hp).imp .inl id⟩
  | unconflicted hu hc =>
    rw [hu] at hst hsane
    obtain ⟨rfl, hparts⟩ := hst
    refine ⟨hsane, fun p hp => ?_, fun _ hk => hk, nofun, fun row hrow k hk hid => eq_of_conflict_none hc hrow hk hid⟩
    rcases hparts p hp with hheld | hkey
    · exact .inl (.inl hheld)
    · exact .inr (.inl hkey)
  | skipped hu hk =>
    rename_i k rest rows
    rw [hu] at hst
    obtain ⟨hnodup, hparts, hrest, hrows, hpool⟩ := hst
    have hkmem : k ∈ r.olmOneTimeKeys := hrest k List.mem_cons_self
    refine ⟨hnodup, fun p hp => ?_, fun k' hk' => hrest k' (List.mem_cons_of_mem _ hk'), hrows, hpool⟩
    rcases hparts p hp with hheld | hkey | hrow
    · exact .inl (.inl hheld)
    · rw [List.map_cons, List.mem_cons] at hkey
      rcases hkey with rfl | hkey
      · -- the key id is stored already, with the same material
        rw [Bool.or_eq_true] at hk
        rcases hk with hk | hk
        · obtain ⟨row, hmem, hid⟩ := exists_of_hasKeyId hk
          refine .inl (.inr (List.mem_map.2 ⟨row, hmem, ?_⟩))
          exact hpool row hmem k hkmem hid.symm
        · obtain ⟨row, hmem, hid⟩ := exists_of_hasKeyId hk
          refine .inr (.inr (List.mem_map.2 ⟨row, hmem, ?_⟩))
          rw [List.inj_on_of_nodup_map hnodup (hrows row hmem) hkmem hid]
      · exact .inr (.inl hkey)
    · exact .inr (.inr hrow)
  | inserted hu hnew =>
    rename_i k rest rows
    rw [hu] at hst
    obtain ⟨hnodup, hparts, hrest, hrows, hpool⟩ := hst
    refine ⟨hnodup, fun p hp => ?_, fun k' hk' => hrest k' (List.mem_cons_of_mem _ hk'), fun row hrow => ?_, hpool⟩
    · rw [List.map_append, List.mem_append, List.map_singleton, List.mem_singleton]
      rcases hparts p hp with hheld | hkey | hrow
      · exact .inl (.inl hheld)
      · rw [List.map_cons, List.mem_cons] at hkey
        rcases hkey with rfl | hkey
        · exact .inr (.inr (.inr rfl))
        · exact .inr (.inl hkey)
      · exact .inr (.inr (.inl hrow))
    · rcases List.mem_append.1 hrow with hrow | hrow
      · exact hrows row hrow
      · rw [List.mem_singleton] at hrow
        subst hrow
        exact hrest k List.mem_cons_self
  | committed hu =>
    rename_i rows
    rw [hu] at hst
    obtain ⟨-, hparts, -, -, -⟩ := hst
    intro p hp
    rcases hparts p hp with hheld | hkey | hrow
    · exact .inl hheld
    · cases hkey
    · obtain ⟨row, hmem, rfl⟩ := List.mem_map.1 hrow
      exact .inr (List.mem_map.2 ⟨row, List.mem_append_right _ hmem, rfl⟩)

theorem Advance.early {u : Upload ι κ} {a : Account ι κ} {l : Option ℕ} (h : State.Advance F s i u a l)
    (hu : u.early = true) : (s.uploads i).early = true ∧ a = s.account := by
  cases h with
  | counted hc =>
    rw [hc]
    exact ⟨rfl, rfl⟩
  | _ => cases hu

theorem Advance.rejected {u : Upload ι κ} {a : Account ι κ} {l : Option ℕ} (h : State.Advance F s i u a l)
    (hu : u.rejected = true) : a = s.account := by
  cases h with
  | full | identityRefused | fallbackRefused | malformed | keysRefused | conflict => rfl
  | _ => cases hu

end Sanity

namespace Watched

variable [DecidableEq ι] [DecidableEq κ] {w w' : Watched ι κ} {i : ℕ}

structure Good (F : Format ι κ) (w : Watched ι κ) : Prop where
  inv : w.server.Inv
  sane : ∀ i, (w.server.uploads i).Sane F
  asked : ∀ i, w.server.uploads i = .idle → w.request i = none
  stores : ∀ i r, w.request i = some r → (w.server.uploads i).Stores (w.held i) w.server.account r
  early : ∀ i, (w.server.uploads i).early = true → w.changed i = false
  clean : ∀ i, (w.server.uploads i).rejected = true → w.changed i = false

omit [DecidableEq ι] [DecidableEq κ] in
theorem good_init : Good F (init : Watched ι κ) where
  inv := State.inv_init
  sane _ := trivial
  asked _ _ := rfl
  stores _ _ := nofun
  early _ _ := rfl
  clean _ _ := rfl

omit [DecidableEq ι] [DecidableEq κ] in
theorem asks_of_ne {e : Event ι κ} (h : e.call ≠ some i) : e.asks i = none := by
  cases e with
  | upload j r epoch => exact if_neg fun hj => h (congrArg some hj)
  | _ => rfl

/-- What a step shows of upload `i`, once what it does to it is known. -/
structure GoodAt (F : Format ι κ) (w : Watched ι κ) (i : ℕ) : Prop where
  sane : (w.server.uploads i).Sane F
  asked : w.server.uploads i = .idle → w.request i = none
  stores : ∀ r, w.request i = some r → (w.server.uploads i).Stores (w.held i) w.server.account r
  early : (w.server.uploads i).early = true → w.changed i = false
  clean : (w.server.uploads i).rejected = true → w.changed i = false

theorem goodAt_of_ne (h : Good F w) {e : Event ι κ} (he : e.call ≠ some i) (hs : w.step F e = some w') :
    GoodAt F w' i := by
  obtain ⟨s, hv, rfl⟩ := Option.map_eq_some_iff.1 hs
  have hu : s.uploads i = w.server.uploads i := State.uploads_of_ne he hv
  have hchanged : (w.changed i || (decide (e.call = some i) && decide (s.account ≠ w.server.account))) =
      w.changed i := by rw [decide_eq_false he, Bool.false_and, Bool.or_false]
  refine ⟨?_, fun hidle => ?_, fun r hr => ?_, fun hearly => ?_, fun hrej => ?_⟩
  · show (s.uploads i).Sane F
    rw [hu]
    exact h.sane i
  · have hidle : s.uploads i = .idle := hidle
    show (e.asks i).or (w.request i) = none
    rw [asks_of_ne he, Option.none_or, h.asked i (hu ▸ hidle)]
  · have hr : (e.asks i).or (w.request i) = some r := hr
    rw [asks_of_ne he, Option.none_or] at hr
    show (s.uploads i).Stores _ s.account r
    rw [hu]
    exact (h.stores i r hr).mono (fun p hp => .inl ⟨asks_of_ne he, hp⟩) fun hh => State.pool_subset h.inv hh he hv
  · have hearly : (s.uploads i).early = true := hearly
    rw [hu] at hearly
    exact hchanged.trans (h.early i hearly)
  · have hrej : (s.uploads i).rejected = true := hrej
    rw [hu] at hrej
    exact hchanged.trans (h.clean i hrej)

theorem goodAt_upload (h : Good F w) {r : PreKeyUploadRequest ι κ} {epoch : ℕ}
    (hs : w.step F (.upload i r epoch) = some w') : GoodAt F w' i := by
  obtain ⟨s, hv, rfl⟩ := Option.map_eq_some_iff.1 hs
  simp only [State.step] at hv
  split at hv
  · rename_i hidle
    cases hv
    have hchanged : (w.changed i || (decide ((Event.upload i r epoch).call = some i) &&
        decide (w.server.account ≠ w.server.account))) = false := by
      rw [h.early i (by rw [hidle]; rfl)]
      simp
    have hasks : (Event.upload i r epoch).asks i = some r := if_pos rfl
    refine ⟨?_, fun hi => ?_, fun r' hr => ?_, fun _ => hchanged, fun _ => hchanged⟩
    · show (Function.update w.server.uploads i _ i).Sane F
      rw [Function.update_self]
      split
      · rename_i hsane
        exact PreKeyUploadRequest.sane hsane epoch
      · trivial
    · have hi : Function.update w.server.uploads i _ i = .idle := hi
      rw [Function.update_self] at hi
      split at hi
      · cases hi
      · cases hi
    · have hr : ((Event.upload i r epoch).asks i).or (w.request i) = some r' := hr
      rw [hasks, Option.some_or, Option.some.injEq] at hr
      subst hr
      show (Function.update w.server.uploads i _ i).Stores _ _ r
      rw [Function.update_self]
      split
      · rfl
      · trivial
  · cases hv

theorem unchanged_of_rejected (h : Good F w) (hok : w.Unrefused (.advance i)) {u : Upload ι κ} {a : Account ι κ}
    {l : Option ℕ} (hadv : State.Advance F w.server i u a l) (hrej : u.rejected = true) : w.changed i = false := by
  have hsane := h.sane i
  -- an upload that has changed the account is past every check that could refuse it
  by_contra hc
  rw [Bool.not_eq_false] at hc
  have hok := hok hc
  cases hadv with
  | full hb | identityRefused hb =>
    have := h.early i (by rw [hb]; rfl)
    rw [hc] at this
    cases this
  | fallbackRefused hb hr hne hwhy =>
    rw [hb] at hok hsane
    obtain ⟨h1, h2⟩ := hsane.1 _ hr
    have hg : w.server.account.guard _ = true := hok (by rw [hr]; exact Option.some_ne_none _)
    rcases hwhy with hwhy | hwhy | hwhy
    · exact hwhy h1
    · exact hwhy h2
    · rw [hg] at hwhy
      cases hwhy
  | malformed hb hwhy =>
    rw [hb] at hsane
    exact hwhy hsane
  | keysRefused hb hne hg =>
    rw [hb] at hok
    have hg' : w.server.account.guard _ = true := hok hne
    rw [hg'] at hg
    cases hg
  | conflict hb hconflict =>
    rw [hb] at hok
    have hnone : w.server.account.conflict _ = none := hok
    rw [hnone] at hconflict
    cases hconflict
  | _ => cases hrej

/-- A step of upload `i` that is no call of the route, and refuses nothing once the account is changed. -/
theorem goodAt_of_advance (h : Good F w) {e : Event ι κ} (he : e.asks i = none) {u : Upload ι κ} {a : Account ι κ}
    {l : Option ℕ} (hadv : State.Advance F w.server i u a l) (hclean : u.rejected = true → w.changed i = false)
    (hs : w.step F e = some w')
    (hv : State.step F w.server e = some { w.server.setUpload i u with account := a, lock := l }) :
    GoodAt F w' i := by
  unfold step at hs
  rw [hv] at hs
  cases hs
  have hu : Function.update w.server.uploads i u i = u := Function.update_self _ _ _
  have hsame : a = w.server.account → w.changed i = false → (w.changed i ||
      (decide (e.call = some i) && decide (a ≠ w.server.account))) = false := by
    rintro rfl hc
    rw [hc]
    simp
  refine ⟨?_, fun hidle => ?_, fun r hr => ?_, fun hearly => ?_, fun hrej => ?_⟩
  · show (Function.update w.server.uploads i u i).Sane F
    rw [hu]
    exact Advance.sane hadv (h.sane i)
  · have hidle : Function.update w.server.uploads i u i = .idle := hidle
    rw [hu] at hidle
    subst hidle
    cases hadv
  · have hr : (e.asks i).or (w.request i) = some r := hr
    rw [he, Option.none_or] at hr
    show (Function.update w.server.uploads i u i).Stores _ a r
    rw [hu]
    refine (Advance.stores hadv (h.sane i) (h.stores i r hr)).mono (fun p hp => ?_) fun _ _ hrow => hrow
    exact hp.imp (fun hp => ⟨he, hp⟩) id
  · have hearly : (Function.update w.server.uploads i u i).early = true := hearly
    rw [hu] at hearly
    obtain ⟨hbefore, ha⟩ := Advance.early hadv hearly
    exact hsame ha (h.early i hbefore)
  · have hrej : (Function.update w.server.uploads i u i).rejected = true := hrej
    rw [hu] at hrej
    exact hsame (Advance.rejected hadv hrej) (hclean hrej)

theorem goodAt_advance (h : Good F w) (hok : w.Unrefused (.advance i)) (hs : w.step F (.advance i) = some w') :
    GoodAt F w' i := by
  obtain ⟨s, hv, -⟩ := Option.map_eq_some_iff.1 hs
  obtain ⟨u, a, l, hadv, rfl⟩ := State.advance_cases hv
  exact goodAt_of_advance h rfl hadv (unchanged_of_rejected h hok hadv) hs hv

theorem goodAt_miscount (h : Good F w) (hs : w.step F (.miscount i) = some w') : GoodAt F w' i := by
  obtain ⟨s, hv, -⟩ := Option.map_eq_some_iff.1 hs
  cases State.step_cases hv with
  | miscount hu hadv => exact goodAt_of_advance h rfl hadv (fun _ => h.early i (by rw [hu]; rfl)) hs hv

theorem goodAt_abort (hok : w.Unrefused (.abort i)) (hs : w.step F (.abort i) = some w') :
    GoodAt F w' i := by
  obtain ⟨s, hv, rfl⟩ := Option.map_eq_some_iff.1 hs
  have hok : w.changed i = false := hok
  simp only [State.step] at hv
  split at hv
  · cases hv
  · cases hv
  · cases hv
    have hchanged : (w.changed i || (decide ((Event.abort i : Event ι κ).call = some i) &&
        decide (w.server.account ≠ w.server.account))) = false := by
      rw [hok]
      simp
    have hu : Function.update w.server.uploads i (.done .noAnswer) i = .done .noAnswer := Function.update_self _ _ _
    refine ⟨?_, fun hi => ?_, fun r hr => ?_, fun _ => hchanged, fun _ => hchanged⟩
    · show (Function.update w.server.uploads i (.done .noAnswer) i).Sane F
      rw [hu]
      trivial
    · have hi : Function.update w.server.uploads i (.done .noAnswer) i = .idle := hi
      rw [hu] at hi
      cases hi
    · show (Function.update w.server.uploads i (.done .noAnswer) i).Stores _ _ r
      rw [hu]
      trivial

theorem good_step (w : Watched ι κ) (e : Event ι κ) (w' : Watched ι κ) (h : Good F w) (hok : w.Unrefused e)
    (hs : w.step F e = some w') : Good F w' := by
  have hat : ∀ i, GoodAt F w' i := by
    intro i
    by_cases he : e.call = some i
    · cases e with
      | upload j r epoch =>
        cases he
        exact goodAt_upload h hs
      | advance j =>
        cases he
        exact goodAt_advance h hok hs
      | miscount j =>
        cases he
        exact goodAt_miscount h hs
      | abort j =>
        cases he
        exact goodAt_abort hok hs
      | fetch | read | fail | replace | rotate => cases he
    · exact goodAt_of_ne h he hs
  obtain ⟨s, hv, rfl⟩ := Option.map_eq_some_iff.1 hs
  exact ⟨State.inv_step _ _ _ h.inv hv, fun i => (hat i).sane, fun i => (hat i).asked, fun i => (hat i).stores,
    fun i => (hat i).early, fun i => (hat i).clean⟩

theorem changed_run {es : List (Event ι κ)} : ∀ {w : Watched ι κ}, run (step F) w es = some w' →
    w'.changed i = false → w.changed i = false := by
  intro w hr hc
  by_contra hw
  rw [Bool.not_eq_false] at hw
  have hkeep : w'.changed i = true := by
    refine run_invariant (fun w : Watched ι κ => w.changed i = true) (fun w e w' h hs => ?_) hw hr
    obtain ⟨s, hs, rfl⟩ := Option.map_eq_some_iff.1 hs
    show (w.changed i || _) = true
    rw [h, Bool.true_or]
  rw [hc] at hkeep
  cases hkeep

theorem without_run {es : List (Event ι κ)} : ∀ {w : Watched ι κ}, w.server.Inv → run (step F) w es = some w' →
    w'.changed i = false → run (State.step F) (w.server.erase i) (without i es) = some (w'.server.erase i) := by
  induction es with
  | nil =>
    intro w _ hr _
    cases hr
    rfl
  | cons e es ih =>
    intro w hv hr hc
    obtain ⟨w₁, hs, hr⟩ := run_cons.1 hr
    have hc₁ : w₁.changed i = false := changed_run hr hc
    obtain ⟨s, hserver, rfl⟩ := Option.map_eq_some_iff.1 hs
    have hrest := ih (State.inv_step _ _ _ hv hserver) hr hc
    by_cases he : e.call = some i
    · have hsame : s.account = w.server.account := by
        by_contra hne
        have hc₁ : (w.changed i || (decide (e.call = some i) && decide (s.account ≠ w.server.account))) = false := hc₁
        rw [decide_eq_true he, decide_eq_true hne, Bool.and_self, Bool.or_true] at hc₁
        cases hc₁
      rw [without_cons_self he, ← State.erase_step_self he hv hserver hsame]
      exact hrest
    · rw [without_cons_of_ne he]
      exact run_cons.2 ⟨s.erase i, State.erase_step_of_ne he hserver, hrest⟩

end Watched

/-- **Uploads are atomic**, in every run in which no upload that has changed the account is refused or fails: without a
rejected upload the run ends with the same account and fetches, and of an accepted one the account has held every part
since it began. -/
theorem upload_run [DecidableEq ι] [DecidableEq κ] {w : Watched ι κ} {es : List (Event ι κ)}
    (hr : run (Watched.step F) Watched.init es = some w)
    (hm : Meets (Watched.step F) Watched.Unrefused Watched.init es) (i : ℕ) :
    ((w.server.uploads i).rejected = true → ∃ s, run (State.step F) State.init (without i es) = some s ∧
      s.account = w.server.account ∧ s.fetches = w.server.fetches) ∧
    ((w.server.uploads i).accepted = true → ∀ r, w.request i = some r → ∀ p ∈ r.parts, w.held i p) := by
  have hgood : w.Good F := hm.invariant (Watched.Good F) Watched.good_step Watched.good_init hr
  constructor
  · intro hrej
    have hrun := Watched.without_run State.inv_init hr (hgood.clean i hrej)
    have hinit : (Watched.init : Watched ι κ).server.erase i = State.init := State.erase_init i
    rw [hinit] at hrun
    exact ⟨_, hrun, rfl, rfl⟩
  · intro hacc r hreq
    have hst := hgood.stores i r hreq
    cases hu : w.server.uploads i with
    | done answer =>
      rw [hu] at hst hacc
      cases answer with
      | ok => exact hst
      | _ => cases hacc
    | _ =>
      rw [hu] at hacc
      cases hacc

def conflictingRequest (fallback : Option (FallbackKey ℕ)) : PreKeyUploadRequest ℕ ℕ := ⟨1, 2, fallback, [⟨5, 9⟩]⟩

def conflictingUpload (fallback : Option (FallbackKey ℕ)) : List (Event ℕ ℕ) :=
  uploadCall 0 firstRequest 0 ++ .upload 1 (conflictingRequest fallback) 0 :: List.replicate 5 (.advance 1)

theorem upload_conflicting : ∃ w : Watched ℕ ℕ,
    run (Watched.step plainFormat) Watched.init (conflictingUpload none) = some w ∧
    (w.server.uploads 1).rejected = true ∧
    ∃ s, run (State.step plainFormat) State.init (without 1 (conflictingUpload none)) = some s ∧
      s.account = w.server.account := by
  obtain ⟨w, hw, hrej⟩ : ∃ w : Watched ℕ ℕ,
      run (Watched.step plainFormat) Watched.init (conflictingUpload none) = some w ∧
      (w.server.uploads 1).rejected = true := exists_run _ _ _ (by decide +kernel)
  obtain ⟨s, hs, ha, -⟩ := (upload_run hw (by decide +kernel) 1).1 hrej
  exact ⟨w, hw, hrej, s, hs, ha⟩

/-- **A rejected upload that has replaced the fallback key.** -/
theorem upload_replacesFallback : ∃ s s' : State ℕ ℕ,
    run (State.step plainFormat) State.init (conflictingUpload (some ⟨8, 1008⟩)) = some s ∧
    (s.uploads 1).rejected = true ∧ s.account.fallbackKey = some ⟨⟨8, 1008⟩, 0⟩ ∧
    run (State.step plainFormat) State.init (without 1 (conflictingUpload (some ⟨8, 1008⟩))) = some s' ∧
    s'.account.fallbackKey = some ⟨⟨3, 1003⟩, 0⟩ := by
  obtain ⟨s, hs, hrej, hf⟩ : ∃ s : State ℕ ℕ,
      run (State.step plainFormat) State.init (conflictingUpload (some ⟨8, 1008⟩)) = some s ∧
      (s.uploads 1).rejected = true ∧ s.account.fallbackKey = some ⟨⟨8, 1008⟩, 0⟩ :=
    exists_run _ _ _ (by decide +kernel)
  obtain ⟨s', hs', hf'⟩ : ∃ s' : State ℕ ℕ,
      run (State.step plainFormat) State.init (without 1 (conflictingUpload (some ⟨8, 1008⟩))) = some s' ∧
      s'.account.fallbackKey = some ⟨⟨3, 1003⟩, 0⟩ :=
    exists_run _ _ _ (by decide +kernel)
  exact ⟨s, s', hs, hrej, hf, hs', hf'⟩

end PreKeys
end SecureChat
