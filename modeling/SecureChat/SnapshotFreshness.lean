import SecureChat.DirectorySnapshots
import SecureChat.RegistryConsistency
/-!
# SnapshotFreshness — what a snapshot request is answered

A snapshot of the version that the registry counts has each account as the registry has it, unless a request has
written that account's entry and not counted it yet (`Sound`).  So a request that reads the version after a change has
been counted is answered with a snapshot that was read after it.  The tag names the version a build has started from,
and what it has read may be newer: tags are honest in runs where no build ends after a change that it has not counted.
-/
namespace SecureChat
namespace Snapshots

open Registry Runs

variable {U T K L E : Type}

/-! ## What a build lists -/

def KeyedRead (read : List (U × Option (RegisteredUser U T K))) : Prop := ∀ x ∈ read, ∀ r ∈ x.2, r.userId = x.1

theorem sublist_keys : ∀ {read : List (U × Option (RegisteredUser U T K))}, KeyedRead read →
    ((read.filterMap Prod.snd).map RegisteredUser.userId).Sublist (read.map Prod.fst)
  | [], _ => .slnil
  | (u, none) :: read, h => by
    rw [List.filterMap_cons_none rfl]
    exact (sublist_keys fun x hx => h x (List.mem_cons_of_mem _ hx)).cons u
  | (u, some r) :: read, h => by
    have hr : r.userId = u := h (u, some r) List.mem_cons_self r rfl
    have hcons : ((u, some r) :: read).filterMap Prod.snd = r :: read.filterMap Prod.snd := List.filterMap_cons_some rfl
    rw [hcons, List.map_cons, List.map_cons, hr]
    exact (sublist_keys fun x hx => h x (List.mem_cons_of_mem _ hx)).cons_cons u

section Lists

variable [LinearOrder U]

def held (read : List (U × Option (RegisteredUser U T K))) (u : U) : Option (RegisteredUser U T K) :=
  (read.find? fun x => decide (x.1 = u)).bind Prod.snd

theorem held_of_mem {read : List (U × Option (RegisteredUser U T K))} {x : U × Option (RegisteredUser U T K)}
    (hn : (read.map Prod.fst).Nodup) (h : x ∈ read) : held read x.1 = x.2 := by
  unfold held
  cases hf : read.find? fun y => decide (y.1 = x.1) with
  | none => exact absurd (decide_eq_true rfl) (List.find?_eq_none.1 hf _ h)
  | some y =>
    have hy : y.1 = x.1 := by simpa using List.find?_some hf
    rw [List.inj_on_of_nodup_map hn (List.mem_of_find?_eq_some hf) h hy]
    rfl

theorem held_eq_some {read : List (U × Option (RegisteredUser U T K))} {u : U} {r : RegisteredUser U T K}
    (hn : (read.map Prod.fst).Nodup) : held read u = some r ↔ (u, some r) ∈ read := by
  constructor
  · intro h
    obtain ⟨x, hx, hr⟩ := Option.bind_eq_some_iff.1 h
    have hu : x.1 = u := by simpa using List.find?_some hx
    have hmem := List.mem_of_find?_eq_some hx
    obtain ⟨v, y⟩ := x
    cases hu
    cases hr
    exact hmem
  · exact fun h => held_of_mem hn h

theorem held_of_not_mem {read : List (U × Option (RegisteredUser U T K))} {u : U} (h : u ∉ read.map Prod.fst) :
    held read u = none := by
  unfold held
  rw [List.find?_eq_none.2 fun x hx hu => h (List.mem_map.2 ⟨x, hx, of_decide_eq_true hu⟩)]
  rfl

theorem mem_values {read : List (U × Option (RegisteredUser U T K))} {r : RegisteredUser U T K}
    (hk : KeyedRead read) (hn : (read.map Prod.fst).Nodup) :
    r ∈ read.filterMap Prod.snd ↔ held read r.userId = some r := by
  rw [held_eq_some hn, List.mem_filterMap]
  constructor
  · rintro ⟨⟨u, y⟩, hx, hr⟩
    obtain rfl : y = some r := hr
    rwa [hk _ hx r rfl]
  · exact fun h => ⟨_, h, rfl⟩

variable [DecidableEq K] (P : Service U T K L E) {read read' : List (U × Option (RegisteredUser U T K))}
  {hidden : Option (Finset U)}

def Lists (r : Option (RegisteredUser U T K)) (l : L) : Prop :=
  ∃ x ∈ r, x.directoryKeyId = some P.directory.keyId ∧ l = P.label x.directoryToken

def real (read : List (U × Option (RegisteredUser U T K))) (hidden : Option (Finset U)) : List (RegisteredUser U T K) :=
  messageable (privateDirectorySnapshot P read) hidden

omit [DecidableEq K] in
theorem mem_messageable {users : List (RegisteredUser U T K)} {r : RegisteredUser U T K} :
    r ∈ messageable users hidden ↔ r ∈ users ∧ ∀ h ∈ hidden, r.userId ∉ h := by
  cases hidden with
  | none => exact ⟨fun h => ⟨h, nofun⟩, fun h => h.1⟩
  | some hidden =>
    unfold messageable
    rw [List.mem_filter, decide_eq_true_eq]
    exact and_congr_right fun _ => ⟨fun h _ he => by cases he; exact h, fun h => h hidden rfl⟩

theorem mem_real {r : RegisteredUser U T K} (hk : KeyedRead read) (hn : (read.map Prod.fst).Nodup) :
    r ∈ real P read hidden ↔ held read r.userId = some r ∧ r.directoryKeyId = some P.directory.keyId ∧
      ∀ h ∈ hidden, r.userId ∉ h := by
  unfold real privateDirectorySnapshot
  rw [mem_messageable, List.mem_insertionSort, List.mem_filter, mem_values hk hn, decide_eq_true_eq, and_assoc]

theorem nodup_real (hk : KeyedRead read) (hn : (read.map Prod.fst).Nodup) : (real P read hidden).Nodup := by
  have hvalues : (read.filterMap Prod.snd).Nodup := (hn.sublist (sublist_keys hk)).of_map
  have hsorted : (privateDirectorySnapshot P read).Nodup := (List.perm_insertionSort _ _).nodup_iff.2 (hvalues.filter _)
  unfold real messageable
  cases hidden with
  | none => exact hsorted
  | some hidden => exact hsorted.filter _

theorem real_perm (hk : KeyedRead read) (hn : (read.map Prod.fst).Nodup) (hk' : KeyedRead read')
    (hn' : (read'.map Prod.fst).Nodup) (h : ∀ u, held read u = held read' u) :
    List.Perm (real P read hidden) (real P read' hidden) := by
  refine (List.perm_ext_iff_of_nodup (nodup_real P hk hn) (nodup_real P hk' hn')).2 fun r => ?_
  rw [mem_real P hk hn, mem_real P hk' hn', h]

variable [LinearOrder L]

theorem mem_build {e : PrivateDirectoryEntry U L} : e ∈ build P read hidden ↔
    (∃ r ∈ real P read hidden, e = sealUserId P r.directoryToken r.userId) ∨
      ∃ i, (real P read hidden).length ≤ i ∧ i < paddedSize (real P read hidden).length ∧ e = decoyEntry P i := by
  have hle : (real P read hidden).length ≤ paddedSize (real P read hidden).length := by
    unfold paddedSize paddingBucket
    omega
  unfold build sortByLabel
  rw [List.mem_insertionSort, List.mem_append, List.mem_map, List.mem_map]
  refine or_congr ⟨?_, ?_⟩ ⟨?_, ?_⟩
  · rintro ⟨r, hr, rfl⟩
    exact ⟨r, hr, rfl⟩
  · rintro ⟨r, hr, rfl⟩
    exact ⟨r, hr, rfl⟩
  · rintro ⟨i, hi, rfl⟩
    rw [List.mem_range'_1, List.length_map] at hi
    have hend : (real P read hidden).length + (paddedSize (real P read hidden).length - (real P read hidden).length) =
        paddedSize (real P read hidden).length := Nat.add_sub_cancel' hle
    exact ⟨i, hi.1, Nat.lt_of_lt_of_eq hi.2 hend, rfl⟩
  · rintro ⟨i, hi, hlt, rfl⟩
    refine ⟨i, ?_, rfl⟩
    rw [List.mem_range'_1, List.length_map]
    have hend : (real P read hidden).length + (paddedSize (real P read hidden).length - (real P read hidden).length) =
        paddedSize (real P read hidden).length := Nat.add_sub_cancel' hle
    exact ⟨hi, Nat.lt_of_lt_of_eq hlt hend.symm⟩

theorem mem_build_congr (hk : KeyedRead read) (hn : (read.map Prod.fst).Nodup) (hk' : KeyedRead read')
    (hn' : (read'.map Prod.fst).Nodup) (h : ∀ u, held read u = held read' u) {e : PrivateDirectoryEntry U L} :
    e ∈ build P read hidden ↔ e ∈ build P read' hidden := by
  have hperm : List.Perm (real P read hidden) (real P read' hidden) := real_perm P hk hn hk' hn' h
  rw [mem_build, mem_build, hperm.length_eq]
  exact or_congr (exists_congr fun r => and_congr_left fun _ => hperm.mem_iff) Iff.rfl

theorem mem_build_user (hk : KeyedRead read) (hn : (read.map Prod.fst).Nodup) {u : U} {l : L} :
    ⟨l, some u⟩ ∈ build P read hidden ↔ Lists P (held read u) l ∧ ∀ h ∈ hidden, u ∉ h := by
  rw [mem_build]
  constructor
  · rintro (⟨r, hr, he⟩ | ⟨i, -, -, he⟩)
    · obtain ⟨hheld, hkey, hhidden⟩ := (mem_real P hk hn).1 hr
      cases he
      exact ⟨⟨r, hheld, hkey, rfl⟩, hhidden⟩
    · cases he
  · rintro ⟨⟨r, hr, hkey, rfl⟩, hhidden⟩
    have hu : r.userId = u := hk _ ((held_eq_some hn).1 hr) r rfl
    subst hu
    exact .inl ⟨r, (mem_real P hk hn).2 ⟨hr, hkey, hhidden⟩, rfl⟩

theorem mem_view {b : Built U T K L E} {y : Option (RegisteredUser U T K)} {e : PrivateDirectoryEntry U L} :
    e ∈ (view P b y).entries ↔ e ∈ b.entries ∨ ownEntry P b.hidden y = some e := by
  unfold view
  cases ownEntry P b.hidden y with
  | none => exact ⟨.inl, fun h => h.resolve_right nofun⟩
  | some own =>
    show e ∈ sortByLabel (b.entries ++ [own]) ↔ _
    unfold sortByLabel
    rw [List.mem_insertionSort, List.mem_append, List.mem_singleton, Option.some.injEq]
    exact or_congr_right eq_comm

omit [LinearOrder L] in
theorem ownEntry_eq_some {y : Option (RegisteredUser U T K)} {e : PrivateDirectoryEntry U L} :
    ownEntry P hidden y = some e ↔ ∃ r ∈ y, (∃ h ∈ hidden, r.userId ∈ h) ∧
      r.directoryKeyId = some P.directory.keyId ∧ e = sealUserId P r.directoryToken r.userId := by
  unfold ownEntry
  cases y with
  | none => exact ⟨nofun, fun ⟨_, hr, _⟩ => by cases hr⟩
  | some r =>
    cases hidden with
    | none => exact ⟨nofun, fun ⟨_, _, ⟨_, hh, _⟩, _⟩ => by cases hh⟩
    | some hidden =>
      by_cases hc : r.userId ∈ hidden ∧ r.directoryKeyId = some P.directory.keyId
      · simp only [if_pos hc]
        refine ⟨fun h => ⟨r, rfl, ⟨hidden, rfl, hc.1⟩, hc.2, (Option.some.inj h).symm⟩, ?_⟩
        rintro ⟨x, hx, -, -, rfl⟩
        cases hx
        rfl
      · simp only [if_neg hc]
        refine ⟨nofun, ?_⟩
        rintro ⟨x, hx, ⟨h, hh, hmem⟩, hkey, -⟩
        cases hx
        cases hh
        exact absurd ⟨hmem, hkey⟩ hc

end Lists

/-! ## The steps -/

def Thread.changes : Thread U T K L E → Option U
  | .counting u _ => some u
  | .operation (.purgingToken u _ _) => some u
  | .operation _ | .snapshot _ => none

def Changing (ts : List (Thread U T K L E)) (u : U) : Prop := ∃ t ∈ ts, t.changes = some u

def Thread.built : Thread U T K L E → Option (Built U T K L E)
  | .snapshot (.publishing _ _ b) | .snapshot (.answering _ _ b) | .snapshot (.answered _ _ b _) => some b
  | _ => none

def Snapshot.requesterId : Snapshot U T K L E → Option U
  | .asking u | .versioning u _ | .checking u _ _ | .locking u _ _ | .rechecking u _ _ | .querying u _ _
  | .building u _ _ _ _ | .publishing u _ _ | .answering u _ _ | .answered u _ _ _ => some u
  | .failed => none

def Snapshot.answersWith : Snapshot U T K L E → Option (Built U T K L E)
  | .answering _ _ b | .answered _ _ b _ => some b
  | _ => none

def Snapshot.reads : Snapshot U T K L E → Option (ℕ × ℕ)
  | .checking _ now v | .locking _ now v | .rechecking _ now v | .querying _ now v | .building _ now v _ _ =>
    some (v, now)
  | _ => none

section Steps

variable [LinearOrder U] [DecidableEq K]

def Stored (s : Server U T K L E) (ts : List (Thread U T K L E)) (b : Built U T K L E) : Prop :=
  s.cached = some b ∨ ∃ t ∈ ts, t.built = some b

def entry (s : Server U T K L E) (u : U) : Option (RegisteredUser U T K) := s.registry.cacheByUserId.get u

def Keyed (r : UserRegistry U T K) : Prop := ∀ u x, r.cacheByUserId.get u = some x → x.userId = u

/-- The thread after its operation `op`, which leads to `op'`. -/
def after (op op' : Operation U T K) : Thread U T K L E := (counted op).elim (.operation op') fun u => .counting u op'

omit [LinearOrder U] [DecidableEq K] in
theorem after_cases (op op' : Operation U T K) : (after op op' : Thread U T K L E) = .operation op' ∨
    ∃ u, (after op op' : Thread U T K L E) = .counting u op' := by
  unfold after
  cases counted op with
  | none => exact .inl rfl
  | some u => exact .inr ⟨u, rfl⟩

/-- What a step of the registry keeps: it writes one account's entry at most, and has then still to count it. -/
structure Written (r r' : UserRegistry U T K) (op op' : Operation U T K) : Prop where
  keyed : Keyed r → Keyed r'
  writes : ∀ u, r'.cacheByUserId.get u = r.cacheByUserId.get u ∨ (after op op' : Thread U T K L E).changes = some u
  goesOn : ∀ u, (Thread.operation op : Thread U T K L E).changes = some u →
    (after op op' : Thread U T K L E).changes = some u

omit [DecidableEq K] in
theorem written_of_same {r r' : UserRegistry U T K} {op op' : Operation U T K} (hr : r'.cacheByUserId = r.cacheByUserId)
    (hop : (Thread.operation op : Thread U T K L E).changes = none) : Written (L := L) (E := E) r r' op op' := by
  refine ⟨fun hk u x hx => hk u x (hr ▸ hx), fun u => .inl (by rw [hr]), fun u hu => ?_⟩
  rw [hop] at hu
  cases hu

theorem cacheByUserId_removeToken [DecidableEq T] (r : UserRegistry U T K) (user : RegisteredUser U T K) :
    (r.apply (.removeToken user)).cacheByUserId = r.cacheByUserId := by
  simp only [UserRegistry.apply]
  split <;> rfl

theorem written_of_exec [DecidableEq T] {D : Directory T K} {r r' : UserRegistry U T K} {op op' : Operation U T K}
    {e : Reading T}
    (h : Registry.exec D r op e = some (r', op')) : Written (L := L) (E := E) r r' op op' := by
  cases op with
  | registering u =>
    simp only [Registry.exec] at h
    split at h <;> cases h <;> exact written_of_same rfl rfl
  | updating u t =>
    simp only [Registry.exec] at h
    split at h <;> cases h <;> exact written_of_same rfl rfl
  | findingUser u t =>
    simp only [Registry.exec] at h
    split at h <;> cases h <;> exact written_of_same rfl rfl
  | lookingUp c t =>
    simp only [Registry.exec] at h
    split at h <;> cases h <;> exact written_of_same rfl rfl
  | findingOwner c t =>
    simp only [Registry.exec] at h
    split at h <;> cases h <;> exact written_of_same rfl rfl
  | reclaiming o c t =>
    simp only [Registry.exec] at h
    split at h <;> cases h <;> exact written_of_same rfl rfl
  | replacing c t =>
    simp only [Registry.exec] at h
    split at h <;> cases h <;> exact written_of_same rfl rfl
  | deleting u =>
    simp only [Registry.exec] at h
    split at h <;> cases h <;> exact written_of_same rfl rfl
  | identifying u i =>
    simp only [Registry.exec] at h
    split at h <;> cases h <;> exact written_of_same rfl rfl
  | purged u n =>
    cases n with
    | zero =>
      cases h
      exact written_of_same rfl rfl
    | succ n =>
      simp only [Registry.exec] at h
      split at h <;> cases h <;> exact written_of_same rfl rfl
  | finished => cases h
  | caching steps =>
    cases steps with
    | nil =>
      cases h
      exact written_of_same rfl rfl
    | cons step steps =>
      cases step with
      | removeToken user =>
        cases h
        exact written_of_same (cacheByUserId_removeToken r user) rfl
      | putToken user =>
        cases h
        exact written_of_same rfl rfl
      | putUser user =>
        cases h
        refine ⟨fun hk u x hx => ?_, fun u => ?_, fun u hu => by cases hu⟩
        · have hx : (r.cacheByUserId.put user.userId user).get u = some x := hx
          rw [Table.get_put] at hx
          split_ifs at hx with hu
          · cases hx
            exact hu.symm
          · exact hk u x hx
        · by_cases hu : u = user.userId
          · exact .inr (congrArg some hu.symm)
          · exact .inl (Table.get_put_of_ne hu)
  | purging u n =>
    simp only [Registry.exec] at h
    cases hg : r.cacheByUserId.get u with
    | none =>
      rw [hg] at h
      cases h
      exact written_of_same rfl rfl
    | some removed =>
      rw [hg] at h
      cases h
      refine ⟨fun hk v x hx => ?_, fun v => ?_, fun v hv => by cases hv⟩
      · have hx : (r.cacheByUserId.remove u).get v = some x := hx
        rw [Table.get_remove] at hx
        split_ifs at hx
        exact hk v x hx
      · by_cases hv : v = u
        · exact .inr (congrArg some hv.symm)
        · exact .inl (Table.get_remove_of_ne hv)
  | purgingToken u removed n =>
    cases h
    have hcache := cacheByUserId_removeToken r removed
    exact ⟨fun hk v x hx => hk v x (hcache ▸ hx), fun v => .inl (by rw [hcache]), fun v hv => hv⟩

variable [LinearOrder L] (P : Service U T K L E)

inductive Looks (s : Server U T K L E) (now : ℕ) : Snapshot U T K L E → Snapshot U T K L E → Prop
  | asks {u : U} : Looks s now (.asking u) (.versioning u now)
  | versions {u : U} {n : ℕ} : Looks s now (.versioning u n) (.checking u n s.membershipVersion)
  | goesOn {x x' : Snapshot U T K L E} (requester : x'.requesterId = x.requesterId) (reads : x'.reads = x.reads)
      (some : x.reads ≠ none) (built : (Thread.snapshot x').built = none)
      (building : ∀ u n v hidden read, x' ≠ .building u n v hidden read) : Looks s now x x'
  | takes {x : Snapshot U T K L E} {u : U} {n v : ℕ} {b : Built U T K L E} (requester : x.requesterId = some u)
      (reads : x.reads = some (v, n)) (cached : s.cached = some b) (version : b.version = v)
      (young : n < b.builtAtMillis + ttlMillis) : Looks s now x (.answering u n b)
  | queries {u : U} {n v : ℕ} {hidden : Option (Finset U)} (keyless : hidden = none ∨ hidden = some s.keylessUsers) :
      Looks s now (.querying u n v) (.building u n v hidden [])
  | visits {u w : U} {n v : ℕ} {hidden : Option (Finset U)} {read : List (U × Option (RegisteredUser U T K))}
      (unread : w ∉ read.map Prod.fst) :
      Looks s now (.building u n v hidden read) (.building u n v hidden ((w, entry s w) :: read))
  | builds {u : U} {n v : ℕ} {hidden : Option (Finset U)} {read : List (U × Option (RegisteredUser U T K))}
      (all : ∀ w, w ∉ read.map Prod.fst → entry s w = none) :
      Looks s now (.building u n v hidden read) (.publishing u n (built P n v hidden read))
  | publishes {u : U} {n : ℕ} {b : Built U T K L E} : Looks s now (.publishing u n b) (.answering u n b)
  | answers {u : U} {n : ℕ} {b : Built U T K L E} :
      Looks s now (.answering u n b) (.answered u n b (view P b (s.directoryEntryOf P.directory u)))
  | fails {x : Snapshot U T K L E} : Looks s now x .failed

/-- The registry, its version and the clock are as they were, and the cache is unless the request publishes. -/
structure Looking (s s' : Server U T K L E) (x : Snapshot U T K L E) : Prop where
  registry : s'.registry = s.registry
  version : s'.membershipVersion = s.membershipVersion
  now : s'.now = s.now
  cached : s'.cached = s.cached ∨ ∃ b, (Thread.snapshot x).built = some b ∧ s'.cached = some b

variable {P}

omit [LinearOrder L] in
theorem fresh_spec {s : Server U T K L E} {n v : ℕ} {b : Built U T K L E} (h : s.fresh P n v = some b) :
    s.cached = some b ∧ b.version = v ∧ n < b.builtAtMillis + ttlMillis := by
  obtain ⟨hc, hf⟩ := Option.filter_eq_some_iff.1 h
  obtain ⟨hv, -, hn⟩ := of_decide_eq_true hf
  exact ⟨hc, hv, hn⟩

theorem looks_of_advance {s s' : Server U T K L E} {x x' : Snapshot U T K L E} {e : Look U T}
    (h : s.advance P e x = some (s', x')) : Looking s s' x ∧ Looks P s s.now x x' := by
  have hsame : ∀ {y : Snapshot U T K L E}, Looking s s y := ⟨rfl, rfl, rfl, .inl rfl⟩
  have hlocked : ∀ {y : Snapshot U T K L E} {b : Bool}, Looking s (s.setLocked b) y := ⟨rfl, rfl, rfl, .inl rfl⟩
  cases x with
  | asking u =>
    cases h
    exact ⟨hsame, .asks⟩
  | versioning u n =>
    cases h
    exact ⟨hsame, .versions⟩
  | checking u n v =>
    simp only [Server.advance] at h
    cases hf : s.fresh P n v with
    | none =>
      rw [hf] at h
      cases h
      exact ⟨hsame, .goesOn rfl rfl nofun rfl nofun⟩
    | some b =>
      rw [hf] at h
      cases h
      obtain ⟨hc, hv, hn⟩ := fresh_spec hf
      exact ⟨hsame, .takes rfl rfl hc hv hn⟩
  | locking u n v =>
    simp only [Server.advance] at h
    split_ifs at h
    cases h
    exact ⟨hlocked, .goesOn rfl rfl nofun rfl nofun⟩
  | rechecking u n v =>
    simp only [Server.advance] at h
    cases hf : s.fresh P n v with
    | none =>
      rw [hf] at h
      cases h
      exact ⟨hsame, .goesOn rfl rfl nofun rfl nofun⟩
    | some b =>
      rw [hf] at h
      cases h
      obtain ⟨hc, hv, hn⟩ := fresh_spec hf
      exact ⟨hlocked, .takes rfl rfl hc hv hn⟩
  | querying u n v =>
    cases h
    refine ⟨hsame, .queries ?_⟩
    cases e.reading.fails with
    | true => exact .inl rfl
    | false => exact .inr rfl
  | building u n v hidden read =>
    simp only [Server.advance] at h
    cases hv : e.visit with
    | some w =>
      rw [hv] at h
      simp only at h
      split_ifs at h with hw
      cases h
      exact ⟨hsame, .visits hw⟩
    | none =>
      rw [hv] at h
      simp only at h
      split_ifs at h with hfails hall
      · cases h
        exact ⟨hlocked, .fails⟩
      · cases h
        refine ⟨hsame, .builds fun w hw => ?_⟩
        cases hx : entry s w with
        | none => rfl
        | some r => exact absurd (hall _ (Table.get_eq_some.1 hx)) hw
  | publishing u n b =>
    cases h
    exact ⟨⟨rfl, rfl, rfl, .inr ⟨b, rfl, rfl⟩⟩, .publishes⟩
  | answering u n b =>
    cases h
    exact ⟨hsame, .answers⟩
  | answered _ _ _ _ | failed => cases h

variable (P)

inductive Effect (s : Server U T K L E) : Thread U T K L E → Server U T K L E → Thread U T K L E → Prop
  | operates {s' : Server U T K L E} {op op' : Operation U T K} (version : s'.membershipVersion = s.membershipVersion)
      (cached : s'.cached = s.cached) (now : s.now ≤ s'.now)
      (written : Written (L := L) (E := E) s.registry s'.registry op op') : Effect s (.operation op) s' (after op op')
  | counts {s' : Server U T K L E} {u : U} {op : Operation U T K}
      (version : s'.membershipVersion = s.membershipVersion + 1) (cached : s'.cached = s.cached) (now : s.now ≤ s'.now)
      (registry : s'.registry = s.registry) : Effect s (.counting u op) s' (.operation op)
  | looks {s' : Server U T K L E} {x x' : Snapshot U T K L E} {n : ℕ} (looking : Looking (s.pass n) s' x)
      (looks : Looks P (s.pass n) (s.now + n) x x') : Effect s (.snapshot x) s' (.snapshot x')

variable {P}

theorem effect_of_exec [DecidableEq T] {s s' : Server U T K L E} {t t' : Thread U T K L E} {e : Look U T}
    (h : s.exec P t e = some (s', t')) : Effect P s t s' t' := by
  cases t with
  | operation op =>
    obtain ⟨⟨r, op'⟩, he, heq⟩ := Option.map_eq_some_iff.1 h
    cases heq
    exact .operates rfl rfl (Nat.le_add_right _ _) (written_of_exec he)
  | counting u op =>
    cases h
    exact .counts rfl rfl (Nat.le_add_right _ _) rfl
  | snapshot x =>
    obtain ⟨⟨s₁, x'⟩, he, heq⟩ := Option.map_eq_some_iff.1 h
    cases heq
    obtain ⟨hlooking, hlooks⟩ := looks_of_advance he
    exact .looks hlooking hlooks

/-! ## What is in the cache and in the requests' hands -/

def Building (ts : List (Thread U T K L E)) (n v : ℕ) (hidden : Option (Finset U))
    (read : List (U × Option (RegisteredUser U T K))) : Prop := ∃ u, .snapshot (.building u n v hidden read) ∈ ts

/-- **The condition under which tags are honest**: a snapshot is published while the registry still is at its version,
and no request has a change still to count. -/
def Steady (s : Server U T K L E) : Thread U T K L E → Look U T → List (Thread U T K L E) → Prop
  | .snapshot (.publishing _ _ b), _, o => b.version = s.membershipVersion ∧ ∀ g ∈ o, g.changes = none
  | _, _, _ => True

/-- A snapshot that `built` has made. -/
structure Genuine (P : Service U T K L E) (b : Built U T K L E) : Prop where
  made : b = built P b.builtAtMillis b.version b.hidden b.read
  keyed : KeyedRead b.read
  nodup : (b.read.map Prod.fst).Nodup

section Effects

variable {s s' : Server U T K L E} {t t' : Thread U T K L E} {o ts ts' : List (Thread U T K L E)}
  {b : Built U T K L E} {n v : ℕ} {hidden : Option (Finset U)} {read : List (U × Option (RegisteredUser U T K))} {u : U}

omit [DecidableEq K] [LinearOrder L] in
theorem stored_perm (hp : List.Perm ts ts') (h : Stored s ts b) : Stored s ts' b :=
  h.imp id fun ⟨g, hg, hb⟩ => ⟨g, hp.mem_iff.1 hg, hb⟩

theorem version_of_effect (he : Effect P s t s' t') : s'.membershipVersion = s.membershipVersion ∨
    s'.membershipVersion = s.membershipVersion + 1 := by
  cases he with
  | operates hv hc hn hw => exact .inl hv
  | counts hv hc hn hr => exact .inr hv
  | looks hl hx => exact .inl hl.version

theorem now_of_effect (he : Effect P s t s' t') : s.now ≤ s'.now := by
  cases he with
  | operates hv hc hn hw => exact hn
  | counts hv hc hn hr => exact hn
  | looks hl hx =>
    rw [hl.now]
    exact Nat.le_add_right _ _

theorem entry_of_effect (he : Effect P s t s' t') (u : U) : entry s' u = entry s u ∨ t'.changes = some u := by
  cases he with
  | operates hv hc hn hw => exact hw.writes u
  | counts hv hc hn hr =>
    unfold entry
    exact .inl (by rw [hr])
  | looks hl hx =>
    unfold entry
    exact .inl (by rw [hl.registry]; rfl)

theorem changing_of_effect (he : Effect P s t s' t') (h : Changing (t :: o) u) :
    Changing (t' :: o) u ∨ s'.membershipVersion = s.membershipVersion + 1 := by
  obtain ⟨g, hg, hu⟩ := h
  rcases List.mem_cons.1 hg with rfl | hg
  · cases he with
    | operates hv hc hn hw => exact .inl ⟨_, List.mem_cons_self, hw.goesOn u hu⟩
    | counts hv hc hn hr => exact .inr hv
    | looks hl hx => cases hu
  · exact .inl ⟨g, List.mem_cons_of_mem _ hg, hu⟩

theorem stored_of_effect (he : Effect P s t s' t') (hb : Stored s' (t' :: o) b) : Stored s (t :: o) b ∨
    ∃ (u : U) (n v : ℕ) (hidden : Option (Finset U)) (read : List (U × Option (RegisteredUser U T K))),
      t = .snapshot (.building u n v hidden read) ∧ (∀ w, w ∉ read.map Prod.fst → entry s w = none) ∧ b =
        built P n v hidden read := by
  have hothers : ∀ g ∈ o, g.built = some b → Stored s (t :: o) b :=
    fun g hg h => .inr ⟨g, List.mem_cons_of_mem _ hg, h⟩
  cases he with
  | operates hv hc hn hw =>
    rcases hb with hb | ⟨g, hg, h⟩
    · exact .inl (.inl (hc ▸ hb))
    · rcases List.mem_cons.1 hg with rfl | hg
      · rename_i op op'
        rcases after_cases op op' with ha | ⟨w, ha⟩
        · rw [ha] at h
          cases h
        · rw [ha] at h
          cases h
      · exact .inl (hothers g hg h)
  | counts hv hc hn hr =>
    rcases hb with hb | ⟨g, hg, h⟩
    · exact .inl (.inl (hc ▸ hb))
    · rcases List.mem_cons.1 hg with rfl | hg
      · cases h
      · exact .inl (hothers g hg h)
  | looks hl hx =>
    rcases hb with hb | ⟨g, hg, h⟩
    · rcases hl.cached with hc | ⟨b', hbuilt, hc⟩
      · exact .inl (.inl (hc.symm.trans hb))
      · obtain rfl : b' = b := Option.some.inj (hc.symm.trans hb)
        exact .inl (.inr ⟨_, List.mem_cons_self, hbuilt⟩)
    · rcases List.mem_cons.1 hg with rfl | hg
      · cases hx with
        | asks | versions | queries _ | visits _ | fails => cases h
        | goesOn hq hr hs hnone hne => exact absurd (hnone.symm.trans h) nofun
        | takes hq hr hc hv hy =>
          cases h
          exact .inl (.inl hc)
        | builds hall =>
          cases h
          exact .inr ⟨_, _, _, _, _, rfl, hall, rfl⟩
        | publishes =>
          cases h
          exact .inl (.inr ⟨_, List.mem_cons_self, rfl⟩)
        | answers =>
          cases h
          exact .inl (.inr ⟨_, List.mem_cons_self, rfl⟩)
      · exact .inl (hothers g hg h)

theorem building_of_effect (he : Effect P s t s' t') (h : Building (t' :: o) n v hidden read) :
    Building (t :: o) n v hidden read ∨
    (∃ u, t = .snapshot (.querying u n v) ∧ read = [] ∧ (hidden = none ∨ hidden = some s.keylessUsers)) ∨
    ∃ u w rest, t = .snapshot (.building u n v hidden rest) ∧ w ∉ rest.map Prod.fst ∧
      read = (w, entry s w) :: rest := by
  obtain ⟨u, hg⟩ := h
  rcases List.mem_cons.1 hg with hg | hg
  · cases he with
    | @operates s' op op' hv hc hn hw =>
      rcases after_cases (L := L) (E := E) op op' with ha | ⟨w, ha⟩
      · rw [ha] at hg
        cases hg
      · rw [ha] at hg
        cases hg
    | counts hv hc hn hr => cases hg
    | looks hl hx =>
      cases hx with
      | asks | versions | takes _ _ _ _ _ | builds _ | publishes | answers | fails => cases hg
      | goesOn hq hr hs hnone hne =>
        cases hg
        exact absurd rfl (hne _ _ _ _ _)
      | queries hk =>
        cases hg
        exact .inr (.inl ⟨_, rfl, rfl, hk⟩)
      | visits hw =>
        cases hg
        exact .inr (.inr ⟨_, _, _, rfl, hw, rfl⟩)
  · exact .inl ⟨u, List.mem_cons_of_mem _ hg⟩

def Snapshot.Bounded (s : Server U T K L E) : Snapshot U T K L E → Prop
  | .versioning _ n => n ≤ s.now
  | x => ∀ v n, x.reads = some (v, n) → v ≤ s.membershipVersion ∧ n ≤ s.now

variable (P) in
/-- **What every run keeps**: a snapshot, or a build, of the version that is counted has each account as the registry
has it, unless a request has that account's change still to count. -/
structure Sound (s : Server U T K L E) (ts : List (Thread U T K L E)) : Prop where
  keyed : Keyed s.registry
  bounded : ∀ x, .snapshot x ∈ ts → x.Bounded s
  building : ∀ n v hidden read, Building ts n v hidden read → KeyedRead read ∧ (read.map Prod.fst).Nodup ∧
    (v = s.membershipVersion → ∀ x ∈ read, x.2 = entry s x.1 ∨ Changing ts x.1)
  stored : ∀ b, Stored s ts b → Genuine P b ∧ b.version ≤ s.membershipVersion ∧ b.builtAtMillis ≤ s.now ∧
    (b.version = s.membershipVersion → ∀ u, held b.read u = entry s u ∨ Changing ts u)

namespace Sound

theorem perm (hp : List.Perm ts ts') (h : Sound P s ts) : Sound P s ts' := by
  have hchanging : ∀ u, Changing ts u → Changing ts' u := fun u ⟨g, hg, hu⟩ => ⟨g, hp.mem_iff.1 hg, hu⟩
  refine ⟨h.keyed, fun x hx => h.bounded x (hp.mem_iff.2 hx), fun n v hidden read ⟨u, hu⟩ => ?_, fun b hb => ?_⟩
  · obtain ⟨hk, hn, hall⟩ := h.building n v hidden read ⟨u, hp.mem_iff.2 hu⟩
    exact ⟨hk, hn, fun hv x hx => (hall hv x hx).imp id (hchanging x.1)⟩
  · obtain ⟨hg, hv, hnow, hall⟩ := h.stored b (hb.imp id fun ⟨g, hg, hb⟩ => ⟨g, hp.mem_iff.2 hg, hb⟩)
    exact ⟨hg, hv, hnow, fun hv u => (hall hv u).imp id (hchanging u)⟩

theorem spawn (r : Request U T) (h : Sound P s ts) : Sound P s (Snapshots.spawn r :: ts) := by
  have hchanging : ∀ u, Changing ts u → Changing (Snapshots.spawn r :: ts) u :=
    fun u ⟨g, hg, hu⟩ => ⟨g, List.mem_cons_of_mem _ hg, hu⟩
  refine ⟨h.keyed, fun x hx => ?_, fun n v hidden read ⟨u, hu⟩ => ?_, fun b hb => ?_⟩
  · rcases List.mem_cons.1 hx with hx | hx
    · cases r with
      | change r => cases hx
      | snapshotFor w =>
        cases hx
        exact nofun
    · exact h.bounded x hx
  · rcases List.mem_cons.1 hu with hu | hu
    · cases r <;> cases hu
    · obtain ⟨hk, hn, hall⟩ := h.building n v hidden read ⟨u, hu⟩
      exact ⟨hk, hn, fun hv x hx => (hall hv x hx).imp id (hchanging x.1)⟩
  · have hold : Stored s ts b := by
      rcases hb with hb | ⟨g, hg, hgb⟩
      · exact .inl hb
      · rcases List.mem_cons.1 hg with rfl | hg
        · cases r <;> cases hgb
        · exact .inr ⟨g, hg, hgb⟩
    obtain ⟨hg, hv, hnow, hall⟩ := h.stored b hold
    exact ⟨hg, hv, hnow, fun hv u => (hall hv u).imp id (hchanging u)⟩

omit [DecidableEq K] [LinearOrder L] in
theorem bounded_mono (hv : s.membershipVersion ≤ s'.membershipVersion) (hn : s.now ≤ s'.now)
    {x : Snapshot U T K L E} (h : x.Bounded s) : x.Bounded s' := by
  have hreads : (∀ v n, x.reads = some (v, n) → v ≤ s.membershipVersion ∧ n ≤ s.now) →
      ∀ v n, x.reads = some (v, n) → v ≤ s'.membershipVersion ∧ n ≤ s'.now :=
    fun h v n hx => ⟨Nat.le_trans (h v n hx).1 hv, Nat.le_trans (h v n hx).2 hn⟩
  cases x with
  | versioning u n => exact Nat.le_trans h hn
  | _ => exact hreads h

theorem bounded_step {x x' : Snapshot U T K L E} {m : ℕ} (hx : Looks P s m x x') (hs : s.now ≤ m)
    (hv : s'.membershipVersion = s.membershipVersion) (hn : s'.now = m) (h : x.Bounded s) : x'.Bounded s' := by
  have hle : s.now ≤ s'.now := hn ▸ hs
  cases hx with
  | asks => exact Nat.le_of_eq hn.symm
  | versions =>
    intro v n heq
    cases heq
    exact ⟨Nat.le_of_eq hv.symm, Nat.le_trans h hle⟩
  | goesOn hq hr hsome hb hne =>
    have hbounded := bounded_mono (Nat.le_of_eq hv.symm) hle h
    cases x with
    | versioning u n => exact absurd rfl hsome
    | _ =>
      cases x' with
      | versioning u n => exact absurd hr.symm hsome
      | _ => exact fun v n heq => hbounded v n (hr ▸ heq)
  | queries hk | visits hw => exact bounded_mono (Nat.le_of_eq hv.symm) hle h
  | takes _ _ _ _ _ | builds _ | publishes | answers | fails => exact nofun

theorem effect (h : Sound P s (t :: o)) (he : Effect P s t s' t') : Sound P s' (t' :: o) := by
  have hle : s.membershipVersion ≤ s'.membershipVersion := by
    rcases version_of_effect he with hv | hv <;> omega
  have hnow := now_of_effect he
  -- an account is as before, or its change has still to be counted
  have hagrees : ∀ {x : Option (RegisteredUser U T K)} {u : U}, s'.membershipVersion = s.membershipVersion →
      x = entry s u ∨ Changing (t :: o) u → x = entry s' u ∨ Changing (t' :: o) u := by
    intro x u hv hx
    rcases hx with rfl | hx
    · rcases entry_of_effect he u with hu | hu
      · exact .inl hu.symm
      · exact .inr ⟨t', List.mem_cons_self, hu⟩
    · rcases changing_of_effect he hx with hx | hsucc
      · exact .inr hx
      · omega
  refine ⟨?_, fun x hx => ?_, fun n v hidden read hb => ?_, fun b hb => ?_⟩
  · cases he with
    | operates hv hc hn hw => exact hw.keyed h.keyed
    | counts hv hc hn hr =>
      rw [hr]
      exact h.keyed
    | looks hl hx =>
      rw [hl.registry]
      exact h.keyed
  · rcases List.mem_cons.1 hx with hx | hx
    · cases he with
      | @operates s' op op' hv hc hn hw =>
        rcases after_cases (L := L) (E := E) op op' with ha | ⟨w, ha⟩
        · rw [ha] at hx
          cases hx
        · rw [ha] at hx
          cases hx
      | counts hv hc hn hr => cases hx
      | @looks s' y x' m hl hlooks =>
        cases hx
        have hv : s.membershipVersion ≤ (s.pass m).membershipVersion := Nat.le_of_eq rfl
        have hn : s.now ≤ (s.pass m).now := Nat.le_add_right _ _
        have hbounded := bounded_mono hv hn (h.bounded y List.mem_cons_self)
        exact bounded_step hlooks (Nat.le_of_eq rfl) hl.version hl.now hbounded
    · exact bounded_mono hle hnow (h.bounded x (List.mem_cons_of_mem _ hx))
  · have hv_le : ∀ {r : List (U × Option (RegisteredUser U T K))}, Building (t :: o) n v hidden r →
        v ≤ s.membershipVersion := fun ⟨u, hu⟩ => (h.bounded _ hu v n rfl).1
    rcases building_of_effect he hb with hold | ⟨u, -, rfl, -⟩ | ⟨u, w, rest, rfl, hw, rfl⟩
    · obtain ⟨hk, hn, hall⟩ := h.building n v hidden read hold
      refine ⟨hk, hn, fun hv x hx => ?_⟩
      have hv' := hv_le hold
      exact hagrees (by omega) (hall (by omega) x hx)
    · exact ⟨nofun, List.nodup_nil, nofun⟩
    · have hold : Building (.snapshot (.building u n v hidden rest) :: o) n v hidden rest := ⟨u, List.mem_cons_self⟩
      obtain ⟨hk, hn, hall⟩ := h.building n v hidden rest hold
      refine ⟨List.forall_mem_cons.2 ⟨fun r hr => h.keyed w r hr, hk⟩, List.nodup_cons.2 ⟨hw, hn⟩, fun hv x hx => ?_⟩
      have hv' := hv_le hold
      rcases List.mem_cons.1 hx with rfl | hx
      · exact hagrees (by omega) (.inl rfl)
      · exact hagrees (by omega) (hall (by omega) x hx)
  · rcases stored_of_effect he hb with hold | ⟨u, n, v, hidden, read, rfl, hall, rfl⟩
    · obtain ⟨hg, hv, hn, hheld⟩ := h.stored b hold
      refine ⟨hg, Nat.le_trans hv hle, Nat.le_trans hn hnow, fun hv' u => ?_⟩
      exact hagrees (by omega) (hheld (by omega) u)
    · have hold : Building (.snapshot (.building u n v hidden read) :: o) n v hidden read := ⟨u, List.mem_cons_self⟩
      obtain ⟨hk, hn, hread⟩ := h.building n v hidden read hold
      obtain ⟨hv, hnow'⟩ := h.bounded _ List.mem_cons_self v n rfl
      refine ⟨⟨rfl, hk, hn⟩, Nat.le_trans hv hle, Nat.le_trans hnow' hnow, fun hv' w => ?_⟩
      have hv' : v = s'.membershipVersion := hv'
      refine hagrees (by omega) ?_
      show held read w = _ ∨ _
      by_cases hw : w ∈ read.map Prod.fst
      · obtain ⟨x, hx, rfl⟩ := List.mem_map.1 hw
        rw [held_of_mem hn hx]
        exact hread (by omega) x hx
      · rw [held_of_not_mem hw, hall w hw]
        exact .inl rfl

end Sound

/-! ## Runs -/

section Run

variable [DecidableEq T] {users : Users U T K} {q q' q₀ : State U T K L E} {ls : List (Step U T)}

theorem sound_init : Sound P (init users : State U T K L E).shared (init users : State U T K L E).threads := by
  refine ⟨fun u x hx => ?_, fun x hx => absurd hx List.not_mem_nil, fun n v hidden read ⟨u, hu⟩ =>
    absurd hu List.not_mem_nil, fun b hb => ?_⟩
  · have hx : (Table.ofList (users.rows.entries.map fun e => (e.1, Users.record e.1 e.2))).get u = some x := hx
    rw [Table.get_ofList (by rw [List.map_map]; exact users.rows.nodup)] at hx
    obtain ⟨e, -, he⟩ := List.mem_map.1 hx
    cases he
    rfl
  · rcases hb with hb | ⟨g, hg, -⟩
    · cases hb
    · exact absurd hg List.not_mem_nil

theorem sound_run (hi : Sound P q₀.shared q₀.threads) (hr : run (step P) q₀ ls = some q) :
    Sound P q.shared q.threads := by
  refine Pool.run_invariant (Sound P) (fun _ _ _ hp h => h.perm hp) (fun _ _ r h => h.spawn r) ?_ hi hr
  exact fun s t e o s' t' h he => h.effect (effect_of_exec he)

theorem step_cases {l : Step U T} (hs : step P q l = some q') :
    (∃ r, q' = ⟨q.shared, q.threads ++ [spawn r]⟩) ∨
    ∃ i t t', q.threads[i]? = some t ∧ q'.threads = q.threads.set i t' ∧ Effect P q.shared t q'.shared t' := by
  cases l with
  | start r => exact .inl ⟨r, Pool.step_start hs⟩
  | step i e =>
    obtain ⟨t, s', t', ht, he, rfl⟩ := Pool.step_step hs
    exact .inr ⟨i, t, t', ht, rfl, effect_of_exec he⟩

theorem version_of_step {l : Step U T} (hs : step P q l = some q') :
    q.shared.membershipVersion ≤ q'.shared.membershipVersion := by
  rcases step_cases hs with ⟨r, rfl⟩ | ⟨i, t, t', -, -, he⟩
  · exact Nat.le_of_eq rfl
  · rcases version_of_effect he with hv | hv <;> omega

theorem stored_of_step {l : Step U T} (hs : step P q l = some q') (hb : Stored q'.shared q'.threads b) :
    Stored q.shared q.threads b ∨ ∃ n v hidden read, Building q.threads n v hidden read ∧
      (∀ w, w ∉ read.map Prod.fst → entry q.shared w = none) ∧ b = built P n v hidden read := by
  rcases step_cases hs with ⟨r, rfl⟩ | ⟨i, t, t', ht, hthreads, he⟩
  · refine .inl (hb.imp id fun ⟨g, hg, hgb⟩ => ?_)
    rcases List.mem_append.1 hg with hg | hg
    · exact ⟨g, hg, hgb⟩
    · obtain rfl := List.mem_singleton.1 hg
      cases r <;> cases hgb
  · have hb' : Stored q'.shared (t' :: q.threads.eraseIdx i) b := by
      rw [hthreads] at hb
      exact stored_perm (Pool.set_perm_others ht t') hb
    rcases stored_of_effect he hb' with hold | ⟨u, n, v, hidden, read, rfl, hall, rfl⟩
    · exact .inl (stored_perm (Pool.perm_others ht).symm hold)
    · exact .inr ⟨n, v, hidden, read, ⟨u, List.mem_of_getElem? ht⟩, hall, rfl⟩

theorem building_of_step {l : Step U T} (hs : step P q l = some q') (h : Building q'.threads n v hidden read) :
    Building q.threads n v hidden read ∨ (read = [] ∧ (hidden = none ∨ hidden = some q.shared.keylessUsers)) ∨
    ∃ w rest, Building q.threads n v hidden rest ∧ read = (w, entry q.shared w) :: rest := by
  rcases step_cases hs with ⟨r, rfl⟩ | ⟨i, t, t', ht, hthreads, he⟩
  · obtain ⟨u, hu⟩ := h
    rcases List.mem_append.1 hu with hu | hu
    · exact .inl ⟨u, hu⟩
    · have hu := List.mem_singleton.1 hu
      cases r <;> cases hu
  · have h' : Building (t' :: q.threads.eraseIdx i) n v hidden read := by
      obtain ⟨u, hu⟩ := h
      rw [hthreads] at hu
      exact ⟨u, (Pool.set_perm_others ht t').mem_iff.1 hu⟩
    rcases building_of_effect he h' with ⟨u, hu⟩ | ⟨u, -, hnil, hk⟩ | ⟨u, w, rest, rfl, -, hread⟩
    · exact .inl ⟨u, (Pool.perm_others ht).mem_iff.2 hu⟩
    · exact .inr (.inl ⟨hnil, hk⟩)
    · exact .inr (.inr ⟨w, rest, ⟨u, List.mem_of_getElem? ht⟩, hread⟩)

/-! ## A request that starts after a change -/

variable (P) in
/-- What a request of `requester` has looked up, with versions from `v₀` on; its own entry is one that the registry has
had. -/
structure Snapshot.Since (requester : U) (v₀ : ℕ) (M : State U T K L E → Prop) (x : Snapshot U T K L E) : Prop where
  asker : ∀ w, x.requesterId = some w → w = requester
  reads : ∀ v n, x.reads = some (v, n) → v₀ ≤ v
  built : ∀ b, (Thread.snapshot x).built = some b → v₀ ≤ b.version
  answered : ∀ w n b a, x = .answered w n b a →
    ∃ m, M m ∧ a = view P b (m.shared.directoryEntryOf P.directory requester)

omit [DecidableEq T] in
theorem Snapshot.Since.looks {requester : U} {v₀ m : ℕ} {M M' : State U T K L E → Prop} {x x' : Snapshot U T K L E}
    (h : x.Since P requester v₀ M) (hM : ∀ q, M q → M' q) (hq : M q) (hv : v₀ ≤ s.membershipVersion)
    (hs : s.registry = q.shared.registry) (hx : Looks P s m x x') : x'.Since P requester v₀ M' := by
  cases hx with
  | asks => exact ⟨h.asker, nofun, nofun, nofun⟩
  | versions =>
    refine ⟨h.asker, fun v n he => ?_, nofun, nofun⟩
    cases he
    exact hv
  | goesOn hr hreads hsome hnone hne =>
    refine ⟨fun w hw => h.asker w (hr ▸ hw), fun v n he => h.reads v n (hreads ▸ he), fun b hb => ?_, ?_⟩
    · exact absurd (hnone.symm.trans hb) nofun
    · rintro w n b a rfl
      cases hnone
  | takes hr hreads hc hver hy =>
    refine ⟨fun w hw => h.asker w (hr.trans hw), nofun, fun b hb => ?_, nofun⟩
    cases hb
    rw [hver]
    exact h.reads _ _ hreads
  | queries hk => exact ⟨h.asker, h.reads, nofun, nofun⟩
  | visits hw => exact ⟨h.asker, h.reads, nofun, nofun⟩
  | builds hall =>
    refine ⟨h.asker, nofun, fun b hb => ?_, nofun⟩
    cases hb
    exact h.reads _ _ rfl
  | publishes => exact ⟨h.asker, nofun, h.built, nofun⟩
  | answers =>
    refine ⟨h.asker, nofun, h.built, fun w n b a he => ?_⟩
    cases he
    refine ⟨q, hM q hq, ?_⟩
    have hw := h.asker _ rfl
    unfold Server.directoryEntryOf
    rw [hs, hw]
  | fails => exact ⟨nofun, nofun, nofun, nofun⟩

variable (P) in
/-- What holds after a state, with `M` the states since then: the snapshots of later versions have the account as the
registry has had it since. -/
structure After (i : ℕ) (requester u : U) (v₀ : ℕ) (M : State U T K L E → Prop) (q : State U T K L E) : Prop where
  here : M q
  version : v₀ ≤ q.shared.membershipVersion
  stored : ∀ b, Stored q.shared q.threads b → v₀ ≤ b.version → ∃ m, M m ∧ held b.read u = entry m.shared u
  building : ∀ n v hidden read, Building q.threads n v hidden read → v₀ ≤ v → ∀ x ∈ read, x.1 = u →
    ∃ m, M m ∧ x.2 = entry m.shared u
  request : ∃ x, q.threads[i]? = some (.snapshot x) ∧ x.Since P requester v₀ M

omit [DecidableEq T] in
theorem After.mono {i : ℕ} {requester : U} {v₀ : ℕ} {M M' : State U T K L E → Prop} (hM : ∀ q, M q → M' q)
    (h : After P i requester u v₀ M q) : After P i requester u v₀ M' q := by
  refine ⟨hM q h.here, h.version, fun b hb hv => ?_, fun n v hidden read hb hv x hx hu => ?_, ?_⟩
  · obtain ⟨m, hm, he⟩ := h.stored b hb hv
    exact ⟨m, hM m hm, he⟩
  · obtain ⟨m, hm, he⟩ := h.building n v hidden read hb hv x hx hu
    exact ⟨m, hM m hm, he⟩
  · obtain ⟨x, hx, hs⟩ := h.request
    refine ⟨x, hx, hs.asker, hs.reads, hs.built, fun w n b a ha => ?_⟩
    obtain ⟨m, hm, he⟩ := hs.answered w n b a ha
    exact ⟨m, hM m hm, he⟩

theorem After.step {i : ℕ} {requester : U} {v₀ : ℕ} {M : State U T K L E → Prop} {l : Step U T}
    (hsound : Sound P q.shared q.threads) (h : After P i requester u v₀ M q) (hs : Snapshots.step P q l = some q') :
    After P i requester u v₀ (fun m => M m ∨ m = q') q' := by
  have hmono : ∀ m, M m → M m ∨ m = q' := fun m hm => .inl hm
  refine ⟨.inr rfl, Nat.le_trans h.version (version_of_step hs), fun b hb hv => ?_,
    fun n v hidden read hb hv x hx hu => ?_, ?_⟩
  · rcases stored_of_step hs hb with hold | ⟨n, v, hidden, read, hbuild, hall, rfl⟩
    · obtain ⟨m, hm, he⟩ := h.stored b hold hv
      exact ⟨m, .inl hm, he⟩
    · obtain ⟨-, hn, -⟩ := hsound.building n v hidden read hbuild
      show ∃ m, _ ∧ held read u = _
      by_cases hu : u ∈ read.map Prod.fst
      · obtain ⟨x, hx, rfl⟩ := List.mem_map.1 hu
        obtain ⟨m, hm, he⟩ := h.building n v hidden read hbuild hv x hx rfl
        exact ⟨m, .inl hm, (held_of_mem hn hx).trans he⟩
      · exact ⟨q, .inl h.here, (held_of_not_mem hu).trans (hall u hu).symm⟩
  · rcases building_of_step hs hb with hold | ⟨rfl, -⟩ | ⟨w, rest, hold, rfl⟩
    · obtain ⟨m, hm, he⟩ := h.building n v hidden read hold hv x hx hu
      exact ⟨m, .inl hm, he⟩
    · exact absurd hx List.not_mem_nil
    · rcases List.mem_cons.1 hx with rfl | hx
      · obtain rfl : w = u := hu
        exact ⟨q, .inl h.here, rfl⟩
      · obtain ⟨m, hm, he⟩ := h.building n v hidden rest hold hv x hx hu
        exact ⟨m, .inl hm, he⟩
  · obtain ⟨x, hx, hsince⟩ := h.request
    have hold : x.Since P requester v₀ fun m => M m ∨ m = q' := (After.mono hmono h).request.elim fun y hy => by
      have hxy : Thread.snapshot y = Thread.snapshot x := Option.some.inj (hy.1.symm.trans hx)
      cases hxy
      exact hy.2
    rcases step_cases hs with ⟨r, rfl⟩ | ⟨j, t, t', ht, hthreads, he⟩
    · refine ⟨x, ?_, hold⟩
      exact (List.getElem?_append_left (List.getElem?_eq_some_iff.1 hx).1).trans hx
    · rw [hthreads]
      by_cases hij : j = i
      · subst hij
        cases Option.some.inj (ht.symm.trans hx)
        cases he with
        | @looks s' x x' n hl hlooks =>
          refine ⟨x', List.getElem?_set_self (List.getElem?_eq_some_iff.1 ht).1, ?_⟩
          exact hsince.looks (s := q.shared.pass n) hmono h.here h.version rfl hlooks
      · exact ⟨x, (List.getElem?_set_ne hij).trans hx, hold⟩

theorem sound_step {l : Step U T} (h : Sound P q.shared q.threads) (hs : step P q l = some q') :
    Sound P q'.shared q'.threads := by
  have hone : run (step P) q [l] = some q' := run_cons.2 ⟨q', hs, rfl⟩
  exact sound_run h hone

theorem after_run {i : ℕ} {requester : U} (hsound : Sound P q₀.shared q₀.threads)
    (hi : q₀.threads[i]? = some (.snapshot (.asking requester))) (hu : ¬Changing q₀.threads u)
    (hr : run (step P) q₀ ls = some q) :
    After P i requester u q₀.shared.membershipVersion (Between (step P) q₀ ls) q := by
  have hfirst : After P i requester u q₀.shared.membershipVersion (fun m => m = q₀) q₀ := by
    refine ⟨rfl, Nat.le_of_eq rfl, fun b hb hv => ?_, fun n v hidden read hb hv x hx hxu => ?_, ?_⟩
    · obtain ⟨-, hle, -, hheld⟩ := hsound.stored b hb
      exact ⟨q₀, rfl, (hheld (Nat.le_antisymm hle hv) u).resolve_right hu⟩
    · obtain ⟨w, hw⟩ := hb
      have hle := (hsound.bounded _ hw v n rfl).1
      obtain ⟨-, -, hread⟩ := hsound.building n v hidden read ⟨w, hw⟩
      have hentry := hread (Nat.le_antisymm hle hv) x hx
      rw [hxu] at hentry
      exact ⟨q₀, rfl, hentry.resolve_right hu⟩
    · refine ⟨_, hi, fun w hw => (Option.some.inj hw).symm, nofun, nofun, nofun⟩
  have hrun : Sound P q.shared q.threads ∧
      After P i requester u q₀.shared.membershipVersion (fun m => m = q₀ ∨ Between (step P) q₀ ls m) q := by
    refine between_invariant (fun M q => Sound P q.shared q.threads ∧
      After P i requester u q₀.shared.membershipVersion M q) ?_ ?_ ⟨hsound, hfirst⟩ hr
    · exact fun M M' q hM h => ⟨h.1, h.2.mono hM⟩
    · exact fun M q l q' h hs => ⟨sound_step h.1 hs, h.2.step h.1 hs⟩
  refine hrun.2.mono fun m hm => ?_
  rcases hm with rfl | hm
  · exact between_first _ ls
  · exact hm

/-- **A snapshot request that starts while no change of an account is under way** is answered with what the registry has
for it then or later, unless the account is hidden from the requester. -/
theorem answered_after {i n : ℕ} {requester w : U} {a : SnapshotView U L E} (hsound : Sound P q₀.shared q₀.threads)
    (hi : q₀.threads[i]? = some (.snapshot (.asking requester))) (hu : ¬Changing q₀.threads u)
    (hr : run (step P) q₀ ls = some q) (ha : q.threads[i]? = some (.snapshot (.answered w n b a))) :
    ∃ m, Between (step P) q₀ ls m ∧ ∀ l, ⟨l, some u⟩ ∈ a.entries ↔
      Lists P (entry m.shared u) l ∧ (u = requester ∨ ∀ h ∈ b.hidden, u ∉ h) := by
  have hafter := after_run hsound hi hu hr
  obtain ⟨x, hx, hsince⟩ := hafter.request
  cases Option.some.inj (hx.symm.trans ha)
  have hstored : Stored q.shared q.threads b := .inr ⟨_, List.mem_of_getElem? ha, rfl⟩
  obtain ⟨m₁, hm₁, hheld⟩ := hafter.stored b hstored (hsince.built b rfl)
  obtain ⟨m₂, hm₂, rfl⟩ := hsince.answered w n b a rfl
  obtain ⟨⟨hmade, hkeyed, hnodup⟩, -⟩ := (sound_run hsound hr).stored b hstored
  have hkeyed₂ : Keyed m₂.shared.registry := by
    obtain ⟨pre, post, -, hpre⟩ := hm₂
    exact (sound_run hsound hpre).keyed
  have hshared : ∀ l, ⟨l, some u⟩ ∈ b.entries ↔ Lists P (entry m₁.shared u) l ∧ ∀ h ∈ b.hidden, u ∉ h := by
    intro l
    have hentries : b.entries = build P b.read b.hidden := by
      rw [hmade]
      rfl
    rw [hentries, mem_build_user P hkeyed hnodup, hheld]
  -- the requester's own entry
  have hown : ∀ l, ownEntry P b.hidden (m₂.shared.directoryEntryOf P.directory requester) = some ⟨l, some u⟩ ↔
      u = requester ∧ (∃ h ∈ b.hidden, u ∈ h) ∧ Lists P (entry m₂.shared u) l := by
    intro l
    rw [ownEntry_eq_some]
    constructor
    · rintro ⟨r, hr, hhidden, hkey, he⟩
      obtain ⟨hget, -⟩ := Option.filter_eq_some_iff.1 hr
      cases he
      have hid := hkeyed₂ _ _ hget
      rw [hid] at hhidden ⊢
      exact ⟨rfl, hhidden, r, hget, hkey, rfl⟩
    · rintro ⟨rfl, hhidden, r, hget, hkey, rfl⟩
      have hid := hkeyed₂ _ _ hget
      refine ⟨r, Option.filter_eq_some_iff.2 ⟨hget, decide_eq_true hkey⟩, ?_, hkey, ?_⟩
      · rw [hid]
        exact hhidden
      · unfold sealUserId
        rw [hid]
  by_cases hc : u = requester ∧ ∃ h ∈ b.hidden, u ∈ h
  · refine ⟨m₂, hm₂, fun l => ?_⟩
    rw [mem_view, hshared, hown]
    obtain ⟨hreq, h, hh, hmem⟩ := hc
    constructor
    · rintro (⟨-, hnot⟩ | ⟨-, -, hl⟩)
      · exact absurd hmem (hnot h hh)
      · exact ⟨hl, .inl hreq⟩
    · exact fun hl => .inr ⟨hreq, ⟨h, hh, hmem⟩, hl.1⟩
  · refine ⟨m₁, hm₁, fun l => ?_⟩
    rw [mem_view, hshared, hown]
    constructor
    · rintro (⟨hl, hnot⟩ | ⟨hreq, hhidden, -⟩)
      · exact ⟨hl, .inr hnot⟩
      · exact absurd ⟨hreq, hhidden⟩ hc
    · rintro ⟨hl, hreq | hnot⟩
      · exact .inl ⟨hl, fun h hh hmem => hc ⟨hreq, h, hh, hmem⟩⟩
      · exact .inl ⟨hl, hnot⟩

/-! ## Accounts without keys -/

variable (P) in
/-- What a request answers with is younger than a minute, and the answer is that snapshot with an entry of the
requester's own at most. -/
def Snapshot.Answers : Snapshot U T K L E → Prop
  | .publishing _ n b | .answering _ n b => n < b.builtAtMillis + ttlMillis
  | .answered _ n b a => n < b.builtAtMillis + ttlMillis ∧ ∃ y, a = view P b y
  | _ => True

omit [DecidableEq T] in
theorem answers_of_looks {x x' : Snapshot U T K L E} {m : ℕ} (hx : Looks P s m x x') (h : x.Answers P) :
    x'.Answers P := by
  cases hx with
  | goesOn hq hr hs hnone hne =>
    cases x' with
    | publishing _ _ _ | answering _ _ _ | answered _ _ _ _ => cases hnone
    | _ => trivial
  | takes hq hr hc hv hy => exact hy
  | @builds u n v hidden read hall =>
    show n < n + ttlMillis
    exact Nat.lt_add_of_pos_right (by decide)
  | publishes => exact h
  | answers => exact ⟨h, _, rfl⟩
  | asks | versions | queries _ | visits _ | fails => trivial

theorem answers_run (hr : run (step P) (init users) ls = some q) :
    ∀ x, .snapshot x ∈ q.threads → x.Answers P := by
  refine Pool.run_invariant (fun _ ts => ∀ x, .snapshot x ∈ ts → x.Answers P)
    (fun _ _ _ hp h x hx => h x (hp.mem_iff.2 hx)) (fun _ ts r h x hx => ?_) (fun s t e o s' t' h he x hx => ?_)
    (fun x hx => absurd hx List.not_mem_nil) hr
  · rcases List.mem_cons.1 hx with hx | hx
    · cases r with
      | change r => cases hx
      | snapshotFor w =>
        cases hx
        trivial
    · exact h x hx
  · rcases List.mem_cons.1 hx with hx | hx
    · have heffect := effect_of_exec he
      cases heffect with
      | @operates s' op op' hv hc hn hw =>
        rcases after_cases (L := L) (E := E) op op' with ha | ⟨w, ha⟩
        · rw [ha] at hx
          cases hx
        · rw [ha] at hx
          cases hx
      | counts hv hc hn hr => cases hx
      | looks hl hlooks =>
        cases hx
        exact answers_of_looks hlooks (h _ List.mem_cons_self)
    · exact h x (List.mem_cons_of_mem _ hx)

/-- What holds after the time `now₀`, with `M` the states since then: a snapshot or a build of a later time has hidden
the accounts that had no keys in one of them, or could not ask. -/
structure Hides (now₀ : ℕ) (M : State U T K L E → Prop) (q : State U T K L E) : Prop where
  here : M q
  stored : ∀ b, Stored q.shared q.threads b → now₀ < b.builtAtMillis → ∀ h ∈ b.hidden, ∃ m, M m ∧
    h = m.shared.keylessUsers
  building : ∀ n v hidden read, Building q.threads n v hidden read → now₀ < n → ∀ h ∈ hidden, ∃ m, M m ∧
    h = m.shared.keylessUsers

omit [LinearOrder L] [DecidableEq T] [DecidableEq K] in
theorem Hides.mono {now₀ : ℕ} {M M' : State U T K L E → Prop} (hM : ∀ q, M q → M' q) (h : Hides now₀ M q) :
    Hides now₀ M' q := by
  refine ⟨hM q h.here, fun b hb hn x hx => ?_, fun n v hidden read hb hn x hx => ?_⟩
  · obtain ⟨m, hm, he⟩ := h.stored b hb hn x hx
    exact ⟨m, hM m hm, he⟩
  · obtain ⟨m, hm, he⟩ := h.building n v hidden read hb hn x hx
    exact ⟨m, hM m hm, he⟩

theorem Hides.step {now₀ : ℕ} {M : State U T K L E → Prop} {l : Step U T} (h : Hides now₀ M q)
    (hs : Snapshots.step P q l = some q') : Hides now₀ (fun m => M m ∨ m = q') q' := by
  have hold : Hides now₀ (fun m => M m ∨ m = q') q := h.mono fun m hm => .inl hm
  refine ⟨.inr rfl, fun b hb hn x hx => ?_, fun n v hidden read hb hn x hx => ?_⟩
  · rcases stored_of_step hs hb with hb | ⟨n, v, hidden, read, hbuild, -, rfl⟩
    · exact hold.stored b hb hn x hx
    · exact hold.building n v hidden read hbuild hn x hx
  · rcases building_of_step hs hb with hbuild | ⟨rfl, hk⟩ | ⟨w, rest, hbuild, rfl⟩
    · exact hold.building n v hidden read hbuild hn x hx
    · rcases hk with rfl | rfl
      · cases hx
      · exact ⟨q, .inl h.here, (Option.some.inj hx).symm⟩
    · exact hold.building n v hidden rest hbuild hn x hx

/-- **The accounts that an answer hides** are those that had no keys at some state of the last minute. -/
theorem hidden_recent {n : ℕ} {w : U} {a : SnapshotView U L E} {ls₀ : List (Step U T)}
    (hr₀ : run (step P) (init users) ls₀ = some q₀) (hr : run (step P) q₀ ls = some q)
    (ha : .snapshot (.answered w n b a) ∈ q.threads) (hyoung : n < b.builtAtMillis + ttlMillis)
    (hn : q₀.shared.now + ttlMillis ≤ n) :
    ∀ h ∈ b.hidden, ∃ m, Between (step P) q₀ ls m ∧ h = m.shared.keylessUsers := by
  have hsound := sound_run sound_init hr₀
  have hfirst : Hides q₀.shared.now (fun m => m = q₀) q₀ := by
    refine ⟨rfl, fun b hb hlt => ?_, fun n v hidden read ⟨u, hu⟩ hlt => ?_⟩
    · exact absurd (hsound.stored b hb).2.2.1 (Nat.not_le.2 hlt)
    · exact absurd (hsound.bounded _ hu v n rfl).2 (Nat.not_le.2 hlt)
  have hrun : Hides q₀.shared.now (fun m => m = q₀ ∨ Between (step P) q₀ ls m) q := by
    refine between_invariant (Hides q₀.shared.now) ?_ ?_ hfirst hr
    · exact fun M M' q hM h => h.mono hM
    · exact fun M q l q' h hs => h.step hs
  have hbuilt : q₀.shared.now < b.builtAtMillis := by omega
  intro h hh
  obtain ⟨m, hm, he⟩ := hrun.stored b (.inr ⟨_, ha, rfl⟩) hbuilt h hh
  refine ⟨m, ?_, he⟩
  rcases hm with rfl | hm
  · exact between_first _ ls
  · exact hm

/-! ## Tags -/

def Published (s : Server U T K L E) (ts : List (Thread U T K L E)) (b : Built U T K L E) : Prop :=
  s.cached = some b ∨ ∃ x, .snapshot x ∈ ts ∧ x.answersWith = some b

omit [LinearOrder L] [DecidableEq T] [DecidableEq K] in
theorem Published.stored (h : Published s ts b) : Stored s ts b := by
  refine h.imp id fun ⟨x, hx, hb⟩ => ⟨_, hx, ?_⟩
  cases x with
  | answering _ _ _ | answered _ _ _ _ => exact hb
  | _ => cases hb

omit [DecidableEq T] in
theorem published_of_effect (he : Effect P s t s' t') (hb : Published s' (t' :: o) b) : Published s (t :: o) b ∨
    ∃ u n, t = .snapshot (.publishing u n b) := by
  have hothers : ∀ x, .snapshot x ∈ o → x.answersWith = some b → Published s (t :: o) b :=
    fun x hx h => .inr ⟨x, List.mem_cons_of_mem _ hx, h⟩
  cases he with
  | @operates s' op op' hv hc hn hw =>
    rcases hb with hb | ⟨x, hx, h⟩
    · exact .inl (.inl (hc ▸ hb))
    · rcases List.mem_cons.1 hx with hx | hx
      · rcases after_cases (L := L) (E := E) op op' with ha | ⟨w, ha⟩
        · rw [ha] at hx
          cases hx
        · rw [ha] at hx
          cases hx
      · exact .inl (hothers x hx h)
  | counts hv hc hn hr =>
    rcases hb with hb | ⟨x, hx, h⟩
    · exact .inl (.inl (hc ▸ hb))
    · rcases List.mem_cons.1 hx with hx | hx
      · cases hx
      · exact .inl (hothers x hx h)
  | @looks s' y y' m hl hlooks =>
    have hown : ∀ b', (Thread.snapshot y).built = some b' → Published s (.snapshot y :: o) b' ∨
        ∃ u n, Thread.snapshot y = .snapshot (.publishing u n b') := by
      intro b' hb'
      cases y with
      | publishing u n b₀ =>
        cases hb'
        exact .inr ⟨u, n, rfl⟩
      | answering _ _ _ | answered _ _ _ _ => exact .inl (.inr ⟨_, List.mem_cons_self, hb'⟩)
      | _ => cases hb'
    rcases hb with hb | ⟨x, hx, h⟩
    · rcases hl.cached with hc | ⟨b', hbuilt, hc⟩
      · exact .inl (.inl (hc.symm.trans hb))
      · obtain rfl : b' = b := Option.some.inj (hc.symm.trans hb)
        exact hown b' hbuilt
    · rcases List.mem_cons.1 hx with hx | hx
      · cases hx
        cases hlooks with
        | asks | versions | queries _ | visits _ | fails | builds _ => cases h
        | goesOn hq hr hs hnone hne =>
          cases y' with
          | answering _ _ _ | answered _ _ _ _ => cases hnone
          | _ => cases h
        | takes hq hr hc hv hy =>
          cases h
          exact .inl (.inl hc)
        | publishes =>
          cases h
          exact .inr ⟨_, _, rfl⟩
        | answers =>
          cases h
          exact .inl (.inr ⟨_, List.mem_cons_self, rfl⟩)
      · exact .inl (hothers x hx h)

def Honest (s : Server U T K L E) (ts : List (Thread U T K L E)) : Prop :=
  ∀ b b', Published s ts b → Published s ts b' → b.version = b'.version → ∀ u, held b.read u = held b'.read u

theorem honest_exec {e : Look U T} (h : Sound P s (t :: o) ∧ Honest s (t :: o)) (hsteady : Steady s t e o)
    (he : s.exec P t e = some (s', t')) : Sound P s' (t' :: o) ∧ Honest s' (t' :: o) := by
  have heffect := effect_of_exec he
  have hsound := h.1.effect heffect
  refine ⟨hsound, fun b b' hb hb' hv u => ?_⟩
  -- a snapshot of the present version agrees with the registry once no change is under way
  have hpresent : ∀ {c}, (∃ w n, t = .snapshot (.publishing w n c)) → ∀ d, Published s' (t' :: o) d →
      d.version = c.version → held d.read u = entry s' u := by
    rintro c ⟨w, n, rfl⟩ d hd hdv
    obtain ⟨hver, hquiet⟩ := hsteady
    obtain ⟨-, hle, -, hheld⟩ := hsound.stored d hd.stored
    cases heffect with
    | looks hl hlooks =>
      have hs' : d.version = _ := hdv.trans (hver.trans hl.version.symm)
      refine (hheld hs' u).resolve_right fun ⟨g, hg, hchange⟩ => ?_
      rcases List.mem_cons.1 hg with rfl | hg
      · cases hchange
      · exact absurd ((hquiet g hg).symm.trans hchange) nofun
  rcases published_of_effect heffect hb with hold | hnew
  · rcases published_of_effect heffect hb' with hold' | hnew'
    · exact h.2 b b' hold hold' hv u
    · rw [hpresent hnew' b hb hv, hpresent hnew' b' hb' rfl]
  · rw [hpresent hnew b hb rfl, hpresent hnew b' hb' hv.symm]

theorem honest_run (hm : Meets (step P) (Pool.Moves Steady) (init users) ls)
    (hr : run (step P) (init users) ls = some q) : Honest q.shared q.threads := by
  have hinit : Honest (init users : State U T K L E).shared (init users : State U T K L E).threads := by
    intro b b' hb
    rcases hb with hb | ⟨x, hx, -⟩
    · cases hb
    · exact absurd hx List.not_mem_nil
  have hperm : ∀ (s : Server U T K L E) ts ts', List.Perm ts ts' → Sound P s ts ∧ Honest s ts →
      Sound P s ts' ∧ Honest s ts' := by
    intro s ts ts' hp h
    have hback : ∀ b, Published s ts' b → Published s ts b :=
      fun b hb => hb.imp id fun ⟨x, hx, hxb⟩ => ⟨x, hp.mem_iff.2 hx, hxb⟩
    exact ⟨h.1.perm hp, fun b b' hb hb' => h.2 b b' (hback b hb) (hback b' hb')⟩
  have hspawn : ∀ (s : Server U T K L E) ts (r : Request U T), Sound P s ts ∧ Honest s ts →
      Sound P s (Snapshots.spawn r :: ts) ∧ Honest s (Snapshots.spawn r :: ts) := by
    intro s ts r h
    have hback : ∀ b, Published s (Snapshots.spawn r :: ts) b → Published s ts b := by
      intro b hb
      refine hb.imp id fun ⟨x, hx, hxb⟩ => ?_
      rcases List.mem_cons.1 hx with hx | hx
      · cases r with
        | change r => cases hx
        | snapshotFor w =>
          cases hx
          cases hxb
      · exact ⟨x, hx, hxb⟩
    exact ⟨h.1.spawn r, fun b b' hb hb' => h.2 b b' (hback b hb) (hback b' hb')⟩
  have hexec : ∀ (s : Server U T K L E) t e o s' t', Sound P s (t :: o) ∧ Honest s (t :: o) → Steady s t e o →
      s.exec P t e = some (s', t') → Sound P s' (t' :: o) ∧ Honest s' (t' :: o) :=
    fun _ _ _ _ _ _ h hsteady he => honest_exec h hsteady he
  exact (Pool.invariant (fun s ts => Sound P s ts ∧ Honest s ts) hperm hspawn hexec ⟨sound_init, hinit⟩ hm hr).2

theorem entries_of_etag {w w' : U} {n n' : ℕ} {b' : Built U T K L E} {a a' : SnapshotView U L E} {tag : E}
    (hdigest : ∀ k i h k' i' h', P.digest k i h = P.digest k' i' h' → i = i' ∧ h = h')
    (hr : run (step P) (init users) ls = some q) (hm : Meets (step P) (Pool.Moves Steady) (init users) ls)
    (ha : .snapshot (.answered w n b a) ∈ q.threads) (ha' : .snapshot (.answered w' n' b' a') ∈ q.threads)
    (he : a.etag = some tag) (he' : a'.etag = some tag) (x : PrivateDirectoryEntry U L) :
    x ∈ a.entries ↔ x ∈ a'.entries := by
  have hview : ∀ {c : Built U T K L E} {y}, (view P c y).etag = some tag →
      (view P c y).entries = c.entries ∧ c.etag = tag := by
    intro c y h
    unfold view at h ⊢
    cases ho : ownEntry P c.hidden y with
    | none =>
      rw [ho] at h
      exact ⟨rfl, Option.some.inj h⟩
    | some own =>
      rw [ho] at h
      cases h
  have hsound := sound_run sound_init hr
  obtain ⟨-, y, rfl⟩ := answers_run hr _ ha
  obtain ⟨-, y', rfl⟩ := answers_run hr _ ha'
  obtain ⟨hentries, htag⟩ := hview he
  obtain ⟨hentries', htag'⟩ := hview he'
  have hp : Published q.shared q.threads b := .inr ⟨_, ha, rfl⟩
  have hp' : Published q.shared q.threads b' := .inr ⟨_, ha', rfl⟩
  obtain ⟨hmade, hk, hn⟩ := (hsound.stored b hp.stored).1
  obtain ⟨hmade', hk', hn'⟩ := (hsound.stored b' hp'.stored).1
  rw [hmade] at htag
  rw [hmade'] at htag'
  obtain ⟨hversion, hhidden⟩ := hdigest _ _ _ _ _ _ (htag.trans htag'.symm)
  have hheld := honest_run hm hr b b' hp hp' hversion
  have hbuild : b.entries = build P b.read b.hidden := by
    rw [hmade]
    rfl
  have hbuild' : b'.entries = build P b'.read b.hidden := by
    rw [hmade', hhidden]
    rfl
  rw [hentries, hentries', hbuild, hbuild']
  exact mem_build_congr P hk hn hk' hn' hheld

/-- **Directory snapshots, over every run**: a request that starts while no change of an account is under way is
answered with what the registry has for it then or later, and lists the account unless it is hidden; the hidden accounts
had no keys at some state of the last minute; and answers with one tag have the same entries, if snapshots are published
while the registry still is at their version. -/
theorem snapshotFor_run {ls₀ : List (Step U T)}
    (hdigest : ∀ k i h k' i' h', P.digest k i h = P.digest k' i' h' → i = i' ∧ h = h')
    (hr₀ : run (step P) (init users) ls₀ = some q₀) (hr : run (step P) q₀ ls = some q) :
    (∀ (i n : ℕ) (requester w u : U) (b : Built U T K L E) (a : SnapshotView U L E),
      q₀.threads[i]? = some (.snapshot (.asking requester)) → ¬Changing q₀.threads u →
      q.threads[i]? = some (.snapshot (.answered w n b a)) →
      ∃ m, Between (step P) q₀ ls m ∧ ∀ l, ⟨l, some u⟩ ∈ a.entries ↔
        Lists P (entry m.shared u) l ∧ (u = requester ∨ ∀ h ∈ b.hidden, u ∉ h)) ∧
    (∀ (w : U) (n : ℕ) (b : Built U T K L E) (a : SnapshotView U L E),
      .snapshot (.answered w n b a) ∈ q.threads → q₀.shared.now + ttlMillis ≤ n →
      ∀ h ∈ b.hidden, ∃ m, Between (step P) q₀ ls m ∧ h = m.shared.keylessUsers) ∧
    (Meets (step P) (Pool.Moves Steady) (init users) (ls₀ ++ ls) →
      ∀ (w w' : U) (n n' : ℕ) (b b' : Built U T K L E) (a a' : SnapshotView U L E) (tag : E),
        .snapshot (.answered w n b a) ∈ q.threads → .snapshot (.answered w' n' b' a') ∈ q.threads →
        a.etag = some tag → a'.etag = some tag → ∀ x, x ∈ a.entries ↔ x ∈ a'.entries) := by
  have hall := run_trans hr₀ hr
  refine ⟨fun i n requester w u b a hi hu ha => ?_, fun w n b a ha hn => ?_,
    fun hm w w' n n' b b' a a' tag ha ha' he he' => ?_⟩
  · exact answered_after (sound_run sound_init hr₀) hi hu hr ha
  · exact hidden_recent hr₀ hr ha (answers_run hall _ ha).1 hn
  · exact entries_of_etag hdigest hall hm ha ha' he he'

end Run

end Effects

end Steps

/-! ## Two accounts -/

section Examples

def sampleService : Service ℕ ℕ ℕ ℕ (ℕ × ℕ × Option (Finset ℕ)) where
  directory := sampleDirectory
  label t := t
  decoyLabel _ i := 1000 + i
  digest k v h := (k, v, h)

/-- Account 1 has a token and no keys, account 3 has keys and a placeholder for its token. -/
def sampleUsers : Users ℕ ℕ ℕ where
  rows := Table.ofList [(1, ⟨7, some 0, {}⟩), (3, ⟨300, none, { olmIdentityKey := true }⟩)]
  unique u v row row' hu hv ht := by
    rw [Table.get_ofList (by decide)] at hu hv
    simp only [List.mem_cons, List.not_mem_nil, or_false, Prod.mk.injEq] at hu hv
    rcases hu with ⟨rfl, rfl⟩ | ⟨rfl, rfl⟩ <;> rcases hv with ⟨rfl, rfl⟩ | ⟨rfl, rfl⟩ <;> simp_all

private def next (i : ℕ) : Step ℕ ℕ := .step i ⟨0, none, 200, false⟩

private def reads (i u : ℕ) : Step ℕ ℕ := .step i ⟨0, some u, 200, false⟩

private def builds (i : ℕ) : List (Step ℕ ℕ) :=
  List.replicate 6 (next i) ++ [reads i 1, reads i 3] ++ List.replicate 3 (next i)

private def updates (i : ℕ) : List (Step ℕ ℕ) := .start (.change (.updateOwnDirectoryToken 3 9)) ::
    List.replicate 9 (next i)

def Thread.asker : Thread U T K L E → Option U
  | .snapshot (.asking u) => some u
  | _ => none

def Thread.answer : Thread U T K L E → Option (SnapshotView U L E)
  | .snapshot (.answered _ _ _ a) => some a
  | _ => none

theorem of_asker {u : U} {t : Thread U T K L E} (h : t.asker = some u) : t = .snapshot (.asking u) := by
  cases t with
  | operation op => cases h
  | counting u op => cases h
  | snapshot x =>
    cases x with
    | asking v =>
      cases h
      rfl
    | _ => cases h

theorem of_answer {t : Thread U T K L E} {a : SnapshotView U L E} (h : t.answer = some a) :
    ∃ w n b, t = .snapshot (.answered w n b a) := by
  cases t with
  | operation op => cases h
  | counting u op => cases h
  | snapshot x =>
    cases x with
    | answered w n b a' =>
      cases h
      exact ⟨w, n, b, rfl⟩
    | _ => cases h

abbrev Sample := State ℕ ℕ ℕ ℕ (ℕ × ℕ × Option (Finset ℕ))

def answerAt (q : Sample) (i : ℕ) : Option (SnapshotView ℕ ℕ (ℕ × ℕ × Option (Finset ℕ))) :=
  q.threads[i]?.bind Thread.answer

theorem of_answerAt {q : Sample} {i : ℕ} {a : SnapshotView ℕ ℕ (ℕ × ℕ × Option (Finset ℕ))}
    (h : answerAt q i = some a) : ∃ w n b, q.threads[i]? = some (.snapshot (.answered w n b a)) := by
  obtain ⟨t, ht, ha⟩ := Option.bind_eq_some_iff.1 h
  obtain ⟨w, n, b, rfl⟩ := of_answer ha
  exact ⟨w, n, b, ht⟩

/-- A request after the change of account 3 has been counted lists it. -/
theorem snapshotFor_updated : ∃ q₀ q : Sample, ∃ a,
    run (step sampleService) (init sampleUsers) (updates 0 ++ [.start (.snapshotFor 5)]) = some q₀ ∧
    run (step sampleService) q₀ (builds 1) = some q ∧ answerAt q 1 = some a ∧ ⟨9, some 3⟩ ∈ a.entries ∧
    ∃ m, Between (step sampleService) q₀ (builds 1) m ∧ ∀ l, ⟨l, some 3⟩ ∈ a.entries ↔
      Lists sampleService (entry m.shared 3) l := by
  have hstart : ∃ q₀ : Sample,
      run (step sampleService) (init sampleUsers) (updates 0 ++ [.start (.snapshotFor 5)]) = some q₀ ∧
      (q₀.threads[1]?.bind Thread.asker = some 5 ∧ ∀ t ∈ q₀.threads, t.changes ≠ some 3) ∧
      ((run (step sampleService) q₀ (builds 1)).any fun q => (answerAt q 1).any fun a =>
        decide (⟨9, some 3⟩ ∈ a.entries)) = true := exists_run _ _ _ (by decide +kernel)
  obtain ⟨q₀, hr₀, ⟨hasks, hquiet⟩, hend⟩ := hstart
  obtain ⟨t, ht, hasker⟩ := Option.bind_eq_some_iff.1 hasks
  obtain rfl := of_asker hasker
  obtain ⟨q, hr, hq⟩ := Option.any_eq_true _ _ |>.1 hend
  obtain ⟨a, ha, hmem⟩ := Option.any_eq_true _ _ |>.1 hq
  obtain ⟨w, n, b, hanswered⟩ := of_answerAt ha
  have hdigest : ∀ k i h k' i' h', sampleService.digest k i h = sampleService.digest k' i' h' → i = i' ∧ h = h' := by
    intro k i h k' i' h' he
    cases he
    exact ⟨rfl, rfl⟩
  have hchanging : ¬Changing q₀.threads 3 := fun ⟨g, hg, hu⟩ => hquiet g hg hu
  obtain ⟨m, hm, hlists⟩ := (snapshotFor_run hdigest hr₀ hr).1 1 n 5 w 3 b a ht hchanging hanswered
  refine ⟨q₀, q, a, hr₀, hr, ha, of_decide_eq_true hmem, m, hm, fun l => ?_⟩
  have hlisted := ((hlists 9).1 (of_decide_eq_true hmem)).2
  rw [hlists l]
  exact ⟨fun h => h.1, fun h => ⟨h, hlisted⟩⟩

def uploads : List (Step ℕ ℕ) :=
  .start (.snapshotFor 5) :: builds 0 ++
    [.start (.change (.setIdentities 1 { olmIdentityKey := true })), next 1, .start (.snapshotFor 5)]

/-- A minute after the first answer a request reads the version; account 3 then stores its token before the request
reads the registry. -/
def overtaken : List (Step ℕ ℕ) :=
  .start (.snapshotFor 5) :: builds 0 ++ [.start (.snapshotFor 5), .step 1 ⟨60000, none, 200, false⟩, next 1] ++
    updates 2 ++ List.replicate 4 (next 1) ++ [reads 1 1, reads 1 3] ++ List.replicate 3 (next 1)

/-- **An account that has its keys is not listed yet, and one tag has two lists.** -/
theorem snapshotFor_late :
    (∃ q₀ q : Sample, ∃ a, run (step sampleService) (init sampleUsers) uploads = some q₀ ∧
      run (step sampleService) q₀ (List.replicate 4 (next 2)) = some q ∧ q₀.shared.keylessUsers = ∅ ∧
      entry q₀.shared 1 = some ⟨1, 7, some 0⟩ ∧ answerAt q 2 = some a ∧ ⟨7, some 1⟩ ∉ a.entries) ∧
    ∃ q : Sample, ∃ a a', run (step sampleService) (init sampleUsers) overtaken = some q ∧ answerAt q 0 = some a ∧
      answerAt q 1 = some a' ∧ a.etag.isSome = true ∧ a.etag = a'.etag ∧ ⟨9, some 3⟩ ∉ a.entries ∧
      ⟨9, some 3⟩ ∈ a'.entries := by
  have hlate : ∃ q₀ : Sample, run (step sampleService) (init sampleUsers) uploads = some q₀ ∧
      (q₀.shared.keylessUsers = ∅ ∧ entry q₀.shared 1 = some ⟨1, 7, some 0⟩) ∧
      ((run (step sampleService) q₀ (List.replicate 4 (next 2))).any fun q => (answerAt q 2).any fun a =>
        decide (⟨7, some 1⟩ ∉ a.entries)) = true := exists_run _ _ _ (by decide +kernel)
  have htwice : ∃ q : Sample, run (step sampleService) (init sampleUsers) overtaken = some q ∧
      ((answerAt q 0).any fun a => (answerAt q 1).any fun a' => decide (a.etag.isSome = true ∧ a.etag = a'.etag ∧
        ⟨9, some 3⟩ ∉ a.entries ∧ ⟨9, some 3⟩ ∈ a'.entries)) = true := exists_run _ _ _ (by decide +kernel)
  refine ⟨?_, ?_⟩
  · obtain ⟨q₀, hr₀, ⟨hkeys, hentry⟩, hend⟩ := hlate
    obtain ⟨q, hr, hq⟩ := Option.any_eq_true _ _ |>.1 hend
    obtain ⟨a, ha, hnot⟩ := Option.any_eq_true _ _ |>.1 hq
    exact ⟨q₀, q, a, hr₀, hr, hkeys, hentry, ha, of_decide_eq_true hnot⟩
  · obtain ⟨q, hr, hq⟩ := htwice
    obtain ⟨a, ha, hq⟩ := Option.any_eq_true _ _ |>.1 hq
    obtain ⟨a', ha', hboth⟩ := Option.any_eq_true _ _ |>.1 hq
    obtain ⟨hsome, htag, hnot, hmem⟩ := of_decide_eq_true hboth
    exact ⟨q, a, a', hr, ha, ha', hsome, htag, hnot, hmem⟩

end Examples

end Snapshots
end SecureChat
