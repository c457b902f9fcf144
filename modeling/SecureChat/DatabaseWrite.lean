import SecureChat.SecureChatDatabase
/-!
# DatabaseWrite — a write happens whole or not at all

A failed write leaves disk and memory as they were (`write_failed`).  A successful one puts on disk what the mutation
left in memory (`write_rows`); whether memory then reads the same rows depends on the cache of the messages, which the
commit updates only while it has room (`write_atomic_iff`).
-/
namespace SecureChat
namespace Storage

open GroupControl (Text)
open MessageQuery (Sorters)

structure Quiet (s : StorageSnapshot) : Prop where
  previous : ∀ c, (s.maps c).previous = .empty
  pending : s.messages.pending = .empty
  clearPending : s.messages.clearPending = false

structure SameMemory (r r' : Records) (s s' : StorageSnapshot) : Prop where
  maps : ∀ c k, (s'.maps c).get k = (s.maps c).get k
  messages : ∀ id, (s'.messages.get (some (messageRows r')) id).1 = (s.messages.get (some (messageRows r)) id).1
  previous : ∀ c, (s'.maps c).previous = (s.maps c).previous
  pending : s'.messages.pending = s.messages.pending
  clearPending : s'.messages.clearPending = s.messages.clearPending

/-- A database between writes.  Before its first load the snapshot may be any. -/
structure Resting (db : Database) : Prop where
  shelved : db.shelved = none
  fullReset : db.fullReset = false
  quiet : Quiet db.cached
  wellFormed : WellFormed db.records
  attached : db.stale = false → db.cached.messages.detached = false
  rows : db.stale = false → SameRows db.records db.cached

/-- What holds of the snapshot `s` while a mutation runs over `s₀`. -/
structure InWrite (r : Records) (s₀ s : StorageSnapshot) : Prop where
  maps : ∀ c, TrackedMap.Journal (s₀.maps c).get (s.maps c)
  attached : s.messages.detached = false
  coherent : s.messages.Coherent (some (messageRows r))

variable {r : Records} {s s₀ : StorageSnapshot} {sorters : Sorters}

namespace MessageTable

variable {t : MessageTable} {rows : MessageRows}

theorem get_quiet (hp : t.pending = .empty) (hclear : t.clearPending = false) (hd : t.detached = false) (id : Text) :
    (t.get (some rows) id).1 = (t.cache.get id).or (rows.get id) := by
  have hvisible : t.diskVisible (some rows) = true := by simp [diskVisible, hd, hclear]
  unfold MessageTable.get
  simp only [hp, Table.get_empty, hvisible, if_true, Option.bind_some]
  cases t.cache.get id with
  | some m => rfl
  | none =>
    cases rows.get id with
    | some m => rfl
    | none => rfl

theorem coherent_iff (hp : t.pending = .empty) (hclear : t.clearPending = false) (hd : t.detached = false) :
    t.Coherent (some rows) ↔ ∀ id, (t.get (some rows) id).1 = rows.get id := by
  constructor
  · intro hc id
    rw [get_quiet hp hclear hd]
    cases hcache : t.cache.get id with
    | none => rfl
    | some m => exact (hc rows rfl id m hcache).symm
  · rintro h _ ⟨rfl⟩ id m hcache
    have hget := h id
    rw [get_quiet hp hclear hd, hcache] at hget
    exact hget.symm

theorem select_spec (sorters : Sorters) (q : MessageQuery) {disk : Option MessageRows} (hc : t.Coherent disk) :
    SameChanges t (t.select sorters disk q).2 ∧ (t.select sorters disk q).2.Coherent disk := by
  obtain ⟨found, t', hfold, hp, hc', -⟩ := fetched_fold sorters q hc
  unfold fetched at hfold
  unfold MessageTable.select
  split
  · exact ⟨.refl t, hc⟩
  · simp only [hfold]
    exact ⟨hp, hc'⟩

end MessageTable

theorem InWrite.set (h : InWrite r s₀ s) {c : Collection} {t : TrackedMap c.Key c.Value}
    (ht : TrackedMap.Journal (s₀.maps c).get t) : InWrite r s₀ (s.set c t) := by
  refine ⟨fun c' => ?_, h.attached, h.coherent⟩
  by_cases hc : c' = c
  · subst hc
    rw [StorageSnapshot.set_maps_self]
    exact ht
  · rw [StorageSnapshot.set_maps_of_ne hc]
    exact h.maps c'

theorem InWrite.messages (h : InWrite r s₀ s) {t : MessageTable} (hd : t.detached = s.messages.detached)
    (hc : t.Coherent (some (messageRows r))) : InWrite r s₀ { s with messages := t } :=
  ⟨h.maps, hd.trans h.attached, hc⟩

theorem InWrite.apply (h : InWrite r s₀ s) (change : Change) :
    InWrite r s₀ (s.apply sorters (messageRows r) change) := by
  cases change with
  | put c k v => exact h.set ((h.maps c).put k v)
  | remove c k => exact h.set ((h.maps c).remove k)
  | removeWhere c p => exact h.set ((h.maps c).removeWhere p)
  | clear c => exact h.set (h.maps c).clear
  | putMessage id m => exact h.messages rfl h.coherent
  | clearMessages => exact h.messages rfl h.coherent
  | readMessage id =>
    obtain ⟨t', hget, hsame, hc⟩ := MessageTable.get_spec id h.coherent
    refine h.messages ?_ ?_
    · rw [hget]
      exact hsame.detached
    · rw [hget]
      exact hc
  | readMessages q =>
    obtain ⟨hsame, hc⟩ := MessageTable.select_spec sorters q h.coherent
    exact h.messages hsame.detached hc
  | removeMessage id =>
    obtain ⟨t', hget, hsame, hc⟩ := MessageTable.get_spec id h.coherent
    refine h.messages ?_ ?_
    · unfold MessageTable.remove
      simp only [hget]
      split
      · exact hsame.detached
      · exact hsame.detached
    · unfold MessageTable.remove
      simp only [hget]
      split
      · exact hc
      · exact hc
  | removeMessages q =>
    obtain ⟨hsame, hc⟩ :=
      MessageTable.select_spec sorters { q with newestFirst := false, limit := none } h.coherent
    exact h.messages hsame.detached hc

theorem InWrite.run (h : InWrite r s₀ s) (sorters : Sorters) (changes : List Change) :
    InWrite r s₀ (changes.foldl (StorageSnapshot.apply sorters (messageRows r)) s) := by
  induction changes generalizing s with
  | nil => exact h
  | cons change l ih => exact ih (h.apply change)

theorem SameRows.get_message (h : SameRows r s) (id : Text) :
    (s.messages.get (some (messageRows r)) id).1 = (messageRows r).get id := by
  rw [get_messageRows, h.messages id, bind_readMessage]

structure Start (r : Records) (s : StorageSnapshot) : Prop where
  quiet : Quiet s
  attached : s.messages.detached = false
  rows : SameRows r s

theorem Start.inWrite (h : Start r s) : InWrite r s s := by
  refine ⟨fun c => .of_empty (h.quiet.previous c), h.attached, ?_⟩
  exact (MessageTable.coherent_iff h.quiet.pending h.quiet.clearPending h.attached).2 h.rows.get_message

theorem InWrite.rollback (h : InWrite r s₀ s) (h₀ : Start r s₀) :
    SameMemory r r s₀ s.rollback ∧ Start r s.rollback := by
  have hmaps : ∀ c k, (s.rollback.maps c).get k = (s₀.maps c).get k := fun c k => (h.maps c).rollback k
  have hcoherent : s.rollback.messages.Coherent (some (messageRows r)) := h.coherent
  have hget : ∀ id, (s.rollback.messages.get (some (messageRows r)) id).1 = (messageRows r).get id :=
    (MessageTable.coherent_iff (t := s.rollback.messages) rfl rfl h.attached).1 hcoherent
  have hmessages : ∀ id, (s.rollback.messages.get (some (messageRows r)) id).1 =
      (s₀.messages.get (some (messageRows r)) id).1 := fun id => (hget id).trans (h₀.rows.get_message id).symm
  refine ⟨⟨hmaps, hmessages, fun c => ?_, h₀.quiet.pending.symm, h₀.quiet.clearPending.symm⟩,
    ⟨fun c => rfl, rfl, rfl⟩, h.attached, ⟨fun c k => ?_, h₀.rows.ids, fun id => ?_⟩⟩
  · exact (h₀.quiet.previous c).symm
  · rw [hmaps]
    exact h₀.rows.maps c k
  · rw [hmessages]
    exact h₀.rows.messages id

/-! ### What the statements leave on disk -/

section Statements

variable {n : CollectionName} {id : Text} {x : Option Json} {l : List (CollectionName × Text × Option Json)}

theorem touch_upsert {change : CollectionName × Text × Option Json} {st : Statement} (h : upsert change = some st) :
    st.touch n id = if change.1 = n ∧ change.2.1 = id then some change.2.2 else none := by
  obtain ⟨data, hdata, rfl⟩ := Option.map_eq_some_iff.1 h
  rw [hdata]
  rfl

theorem touch_deletion {change : CollectionName × Text × Option Json} {st : Statement} (h : deletion change = some st) :
    st.touch n id = if change.1 = n ∧ change.2.1 = id then some change.2.2 else none := by
  unfold deletion at h
  split at h
  · cases h
  · rename_i hnone
    rw [Option.not_isSome_iff_eq_none.1 hnone, ← Option.some.inj h]
    rfl

theorem mem_rowStatements {change : CollectionName × Text × Option Json} (h : change ∈ l) (n : CollectionName)
    (id : Text) :
    ∃ st ∈ rowStatements l, st.touch n id = if change.1 = n ∧ change.2.1 = id then some change.2.2 else none := by
  cases hdata : change.2.2 with
  | some data =>
    have hst : upsert change = some (.insertOrReplace change.1 change.2.1 data) := by simp [upsert, hdata]
    refine ⟨_, List.mem_append.2 (.inl (List.mem_filterMap.2 ⟨change, h, hst⟩)), ?_⟩
    rw [touch_upsert hst, hdata]
  | none =>
    have hst : deletion change = some (.delete change.1 change.2.1) := by simp [deletion, hdata]
    refine ⟨_, List.mem_append.2 (.inr (List.mem_filterMap.2 ⟨change, h, hst⟩)), ?_⟩
    rw [touch_deletion hst, hdata]

theorem of_mem_rowStatements {st : Statement} (h : st ∈ rowStatements l) (n : CollectionName) (id : Text) :
    ∃ change ∈ l, st.touch n id = if change.1 = n ∧ change.2.1 = id then some change.2.2 else none := by
  rcases List.mem_append.1 h with h | h
  · obtain ⟨change, hmem, hst⟩ := List.mem_filterMap.1 h
    exact ⟨change, hmem, touch_upsert hst⟩
  · obtain ⟨change, hmem, hst⟩ := List.mem_filterMap.1 h
    exact ⟨change, hmem, touch_deletion hst⟩

/-- **Changes that agree about a row**: it holds what they say, or what it held when there is none. -/
theorem execAll_rowStatements {base : Records}
    (h : ∀ change ∈ l, change.1 = n → change.2.1 = id → change.2.2 = x) :
    (Statement.execAll (rowStatements l) base n).get id =
      if ∃ change ∈ l, change.1 = n ∧ change.2.1 = id then x else (base n).get id := by
  have hagree : ∀ st ∈ rowStatements l, ∀ y, st.touch n id = some y → y = x := by
    intro st hst y hy
    obtain ⟨change, hmem, htouch⟩ := of_mem_rowStatements hst n id
    rw [htouch] at hy
    split at hy
    · rename_i hkey
      exact (Option.some.inj hy).symm.trans (h change hmem hkey.1 hkey.2)
    · cases hy
  rw [Statement.execAll_get hagree]
  have hiff : (∃ st ∈ rowStatements l, (st.touch n id).isSome = true) ↔
      ∃ change ∈ l, change.1 = n ∧ change.2.1 = id := by
    constructor
    · rintro ⟨st, hst, hsome⟩
      obtain ⟨change, hmem, htouch⟩ := of_mem_rowStatements hst n id
      refine ⟨change, hmem, ?_⟩
      by_contra hnot
      rw [htouch, if_neg hnot] at hsome
      cases hsome
    · rintro ⟨change, hmem, hkey⟩
      obtain ⟨st, hst, htouch⟩ := mem_rowStatements hmem n id
      exact ⟨st, hst, by rw [htouch, if_pos hkey]; rfl⟩
  simp only [hiff]

theorem mem_rowChanges {change : CollectionName × Text × Option Json} : change ∈ s.rowChanges ↔
    (∃ c, ∃ y ∈ (s.maps c).changes, change = (.tracked c, c.idOf y.1, y.2.map (document c))) ∨
    ∃ y ∈ s.messages.pending.entries, change = (.messages, y.1, y.2.map fun m => .obj m.toJson) := by
  unfold StorageSnapshot.rowChanges
  rw [List.mem_append, List.mem_flatMap, List.mem_map]
  constructor
  · rintro (⟨c, -, hc⟩ | ⟨y, hy, rfl⟩)
    · obtain ⟨y, hy, rfl⟩ := List.mem_map.1 hc
      exact .inl ⟨c, y, hy, rfl⟩
    · exact .inr ⟨y, hy, rfl⟩
  · rintro (⟨c, y, hy, rfl⟩ | ⟨y, hy, rfl⟩)
    · exact .inl ⟨c, Collection.mem_all c, List.mem_map_of_mem hy⟩
    · exact .inr ⟨y, hy, rfl⟩

/-- The rows of a snapshot and their ids, with the pending messages over `base`. -/
structure Holds (base : Records) (s : StorageSnapshot) (r : Records) : Prop where
  maps : ∀ c k, (r (.tracked c)).get (c.idOf k) = ((s.maps c).get k).map (document c)
  ids : ∀ c id, ((r (.tracked c)).get id).isSome = true → ∃ k, id = c.idOf k
  messages : ∀ id, (r .messages).get id =
    (s.messages.current (some (messageRows base)) id).map fun m => .obj m.toJson

/-- **The statements leave the rows of the snapshot**, when what is not noted and not pending is there already. -/
theorem holds_rowStatements {base disk : Records}
    (hmaps : ∀ c k, ¬ k ∈ (s.maps c).changes.map Prod.fst →
      (base (.tracked c)).get (c.idOf k) = ((s.maps c).get k).map (document c))
    (hids : ∀ c id, ((base (.tracked c)).get id).isSome = true → ∃ k, id = c.idOf k)
    (hmessages : ∀ id, s.messages.pending.get id = none →
      (base .messages).get id = (s.messages.current (some (messageRows disk)) id).map fun m => .obj m.toJson) :
    Holds disk s (Statement.execAll (rowStatements s.rowChanges) base) := by
  refine ⟨fun c k => ?_, fun c id hsome => ?_, fun id => ?_⟩
  · have hagree : ∀ change ∈ s.rowChanges, change.1 = .tracked c → change.2.1 = c.idOf k →
        change.2.2 = ((s.maps c).get k).map (document c) := by
      intro change hmem hn hid
      rcases mem_rowChanges.1 hmem with ⟨c', y, hy, rfl⟩ | ⟨y, hy, rfl⟩
      · obtain rfl : c' = c := CollectionName.tracked.inj hn
        have hk : y.1 = k := Collection.idOf_inj hid
        simp only [TrackedMap.mem_changes hy, hk]
      · cases hn
    rw [execAll_rowStatements hagree]
    split
    · rfl
    · rename_i hnone
      refine hmaps c k fun hk => hnone ?_
      obtain ⟨y, hy, rfl⟩ := List.mem_map.1 hk
      exact ⟨_, mem_rowChanges.2 (.inl ⟨c, y, hy, rfl⟩), rfl, rfl⟩
  · by_contra hnot
    have hnone : ∀ change ∈ s.rowChanges, change.1 = .tracked c → change.2.1 = id → change.2.2 = none := by
      intro change hmem hn hid
      rcases mem_rowChanges.1 hmem with ⟨c', y, hy, rfl⟩ | ⟨y, hy, rfl⟩
      · obtain rfl : c' = c := CollectionName.tracked.inj hn
        exact absurd ⟨y.1, hid.symm⟩ hnot
      · cases hn
    rw [execAll_rowStatements hnone] at hsome
    split at hsome
    · cases hsome
    · exact hnot (hids c id hsome)
  · have hagree : ∀ change ∈ s.rowChanges, change.1 = .messages → change.2.1 = id →
        change.2.2 = (s.messages.current (some (messageRows disk)) id).map fun m => .obj m.toJson := by
      intro change hmem hn hid
      rcases mem_rowChanges.1 hmem with ⟨c, y, hy, rfl⟩ | ⟨y, hy, rfl⟩
      · cases hn
      · have hget : s.messages.pending.get id = some y.2 := Table.get_eq_some.2 (hid ▸ hy)
        simp only [MessageTable.current, hget]
    rw [execAll_rowStatements hagree]
    split
    · rfl
    · rename_i hnone
      refine hmessages id ?_
      by_contra hsome
      obtain ⟨m, hm⟩ := Option.ne_none_iff_exists'.1 hsome
      exact hnone ⟨_, mem_rowChanges.2 (.inr ⟨(id, m), Table.get_eq_some.1 hm, rfl⟩), rfl, rfl⟩

end Statements

/-! ### What the commit leaves in the cache -/

namespace MessageTable

/-- Whenever the commit comes to a message whose older version is cached, the cache has room. -/
def Fits (cache : Table Text MessageEntity) : List (Text × Option MessageEntity) → Prop
  | [] => True
  | entry :: l =>
    (∀ m, entry.2 = some m → cache.card < cacheLimit ∨ ∀ old, cache.get entry.1 = some old → old = m) ∧
    Fits (cachePending cache entry) l

theorem get_cachePending_of_ne {cache : Table Text MessageEntity} {entry : Text × Option MessageEntity} {id : Text}
    (h : id ≠ entry.1) : (cachePending cache entry).get id = cache.get id := by
  unfold cachePending
  split
  · exact Table.get_remove_of_ne h
  · split
    · exact Table.get_assign_of_ne h
    · rfl

theorem get_foldl_cachePending {l : List (Text × Option MessageEntity)} {id : Text} (h : ¬ id ∈ l.map Prod.fst) :
    ∀ {cache : Table Text MessageEntity}, (l.foldl cachePending cache).get id = cache.get id := by
  induction l with
  | nil => intro cache; rfl
  | cons entry l ih =>
    intro cache
    simp only [List.map_cons, List.mem_cons, not_or] at h
    rw [List.foldl_cons, ih h.2, get_cachePending_of_ne h.1]

/-- **The commit leaves no old version in the cache exactly when the changes fit**: `new` is what the disk holds. -/
theorem fits_iff (new : Text → Option MessageEntity) {l : List (Text × Option MessageEntity)} :
    ∀ (cache : Table Text MessageEntity), (l.map Prod.fst).Nodup → (∀ entry ∈ l, new entry.1 = entry.2) →
      (∀ id m, ¬ id ∈ l.map Prod.fst → cache.get id = some m → new id = some m) →
      ((∀ id m, (l.foldl cachePending cache).get id = some m → new id = some m) ↔ Fits cache l) := by
  induction l with
  | nil =>
    intro cache _ _ hcache
    exact ⟨fun _ => trivial, fun _ id m h => hcache id m List.not_mem_nil h⟩
  | cons entry l ih =>
    intro cache hnodup hnew hcache
    obtain ⟨hnot, hnodup⟩ := List.nodup_cons.1 hnodup
    have hentry : new entry.1 = entry.2 := hnew entry List.mem_cons_self
    have hrest : ∀ entry' ∈ l, new entry'.1 = entry'.2 := fun e he => hnew e (List.mem_cons_of_mem _ he)
    have hother : ∀ id m, ¬ id ∈ l.map Prod.fst → id ≠ entry.1 → (cachePending cache entry).get id = some m →
        new id = some m := by
      intro id m hid hne h
      rw [get_cachePending_of_ne hne] at h
      refine hcache id m (fun hmem => ?_) h
      rcases List.mem_cons.1 hmem with rfl | hmem
      · exact hne rfl
      · exact hid hmem
    by_cases hfit : ∀ m, entry.2 = some m → cache.card < cacheLimit ∨ ∀ old, cache.get entry.1 = some old → old = m
    · have hstep : ∀ id m, ¬ id ∈ l.map Prod.fst → (cachePending cache entry).get id = some m → new id = some m := by
        intro id m hid h
        by_cases hne : id = entry.1
        · rw [hne] at h ⊢
          rw [hentry]
          unfold cachePending at h
          split at h
          · rw [Table.get_remove_self] at h
            cases h
          · rename_i m' hm'
            split at h
            · rw [Table.get_assign_self] at h
              rw [hm', h]
            · rename_i hfull
              rw [hm', (hfit m' hm').resolve_left hfull m h]
        · exact hother id m hid hne h
      rw [List.foldl_cons, ih _ hnodup hrest hstep]
      exact ⟨fun h => ⟨hfit, h⟩, fun h => h.2⟩
    · constructor
      · intro h
        refine absurd (fun m hm => ?_) hfit
        by_contra hboth
        push Not at hboth
        obtain ⟨hfull, old, hold, hne⟩ := hboth
        have hsame : cachePending cache entry = cache := by simp [cachePending, hm, hfull]
        have hfinal : ((entry :: l).foldl cachePending cache).get entry.1 = some old := by
          rw [List.foldl_cons, hsame, get_foldl_cachePending hnot, hold]
        have hnewold : new entry.1 = some old := h entry.1 old hfinal
        rw [hentry, hm] at hnewold
        exact hne (Option.some.inj hnewold).symm
      · intro h
        exact absurd h.1 hfit

end MessageTable

theorem Holds.wellFormed {base r' : Records} (h : Holds base s r') : WellFormed r' := by
  constructor
  · intro c id data hdata
    obtain ⟨k, rfl⟩ := h.ids c id (by rw [hdata]; rfl)
    rw [h.maps] at hdata
    obtain ⟨v, -, rfl⟩ := Option.map_eq_some_iff.1 hdata
    exact ⟨k, v, rfl, rfl⟩
  · intro id data hdata
    rw [h.messages] at hdata
    obtain ⟨m, -, rfl⟩ := Option.map_eq_some_iff.1 hdata
    exact ⟨m, rfl⟩

theorem Holds.get_messageRows {base r' : Records} (h : Holds base s r') (id : Text) :
    (messageRows r').get id = s.messages.current (some (messageRows base)) id := by
  rw [Storage.get_messageRows, h.messages id, bind_readMessage]

/-- **After the commit memory reads the rows of the disk exactly when the pending messages fit into the cache.** -/
theorem Holds.sameRows_iff {r' : Records} (h : Holds r s r')
    (hcoherent : (s.messages.clearPending || s.messages.detached) = false →
      s.messages.Coherent (some (messageRows r))) :
    SameRows r' s.commit ↔ MessageTable.Fits s.messages.cacheBefore s.messages.pending.entries := by
  have hfits := MessageTable.fits_iff (fun id => s.messages.current (some (messageRows r)) id)
    s.messages.cacheBefore s.messages.pending.nodup ?_ ?_
  · rw [← hfits]
    have hcommit : s.commit.messages.Coherent (some (messageRows r')) ↔
        ∀ id m, (s.messages.pending.entries.foldl MessageTable.cachePending s.messages.cacheBefore).get id = some m →
          s.messages.current (some (messageRows r)) id = some m := by
      simp only [← h.get_messageRows]
      exact ⟨fun hc id m hm => hc _ rfl id m hm, fun hc rows hrows id m hm => Option.some.inj hrows ▸ hc id m hm⟩
    rw [← hcommit, MessageTable.coherent_iff (t := s.commit.messages) rfl rfl rfl]
    constructor
    · exact fun hrows => hrows.get_message
    · intro hget
      refine ⟨h.maps, h.ids, fun id => ?_⟩
      rw [hget, messages_roundTrip h.wellFormed]
  · intro entry hentry
    simp only [MessageTable.current, Table.get_eq_some.2 hentry]
  · intro id m hid hcache
    have hpending : s.messages.pending.get id = none := Table.get_eq_none.2 hid
    unfold MessageTable.cacheBefore at hcache
    split at hcache
    · simp at hcache
    · rename_i hkeep
      have hflags : (s.messages.clearPending || s.messages.detached) = false := by simpa using hkeep
      have hrow : (messageRows r).get id = some m := hcoherent hflags _ rfl id m hcache
      simp only [Bool.or_eq_false_iff] at hflags
      simp [MessageTable.current, hpending, MessageTable.diskVisible, hflags.1, hflags.2, hrow]

/-! ### A whole write -/

theorem InWrite.holds (h : InWrite r s₀ s) (h₀ : Start r s₀) :
    Holds r s (Statement.execAll (statements false s) r) := by
  have hbase : ∀ c, Statement.execAll (clears false s) r (.tracked c) = r (.tracked c) := by
    intro c
    cases hclear : s.messages.clearPending with
    | false => simp [clears, hclear, Statement.execAll]
    | true => simp [clears, hclear, Statement.execAll, Statement.exec]
  have hmessages : ∀ id, s.messages.pending.get id = none →
      (Statement.execAll (clears false s) r .messages).get id =
        (s.messages.current (some (messageRows r)) id).map fun m => .obj m.toJson := by
    intro id hp
    cases hclear : s.messages.clearPending with
    | false =>
      have hcurrent : s.messages.current (some (messageRows r)) id = (messageRows r).get id := by
        simp [MessageTable.current, hp, MessageTable.diskVisible, h.attached, hclear]
      rw [hcurrent, ← messages_roundTrip h₀.rows.wellFormed]
      simp [clears, hclear, Statement.execAll]
    | true =>
      have hcurrent : s.messages.current (some (messageRows r)) id = none := by
        simp [MessageTable.current, hp, MessageTable.diskVisible, hclear]
      rw [hcurrent]
      simp [clears, hclear, Statement.execAll, Statement.exec]
  rw [statements, Statement.execAll_append]
  refine holds_rowStatements (fun c k hk => ?_) (fun c id hsome => ?_) hmessages
  · rw [hbase, h₀.rows.maps, (h.maps c).get_of_not_noted hk]
  · rw [hbase] at hsome
    exact h₀.rows.ids c id hsome

theorem Replacement.holds (rep : Replacement) (r : Records) :
    Holds r rep.snapshot.markAll (Statement.execAll (statements true rep.snapshot.markAll) r) := by
  have hclear : rep.snapshot.markAll.messages.clearPending = false := rep.clearPending
  have hbase : Statement.execAll (clears true rep.snapshot.markAll) r = fun _ => .empty := by
    simp [clears, hclear, Statement.execAll, Statement.exec]
  rw [statements, Statement.execAll_append, hbase]
  refine holds_rowStatements (fun c k hk => ?_) (fun c id hsome => ?_) fun id hp => ?_
  · have hnone : (rep.snapshot.markAll.maps c).get k = none := by
      by_contra hsome
      obtain ⟨v, hv⟩ := Option.ne_none_iff_exists'.1 hsome
      have hinner : ((rep.snapshot.maps c).inner.get k).isSome = true := by
        have hmarked : (rep.snapshot.maps c).markAll.inner.get k = some v := hv
        rw [TrackedMap.markAll_inner] at hmarked
        rw [hmarked]
        rfl
      obtain ⟨w, hw⟩ := Option.isSome_iff_exists.1 (TrackedMap.markAll_noted hinner)
      refine hk ?_
      rw [TrackedMap.changes, List.map_map]
      exact List.mem_map_of_mem (Table.get_eq_some.1 hw)
    rw [hnone]
    rfl
  · cases hsome
  · have hdetached : rep.snapshot.markAll.messages.detached = true := rep.detached
    simp [MessageTable.current, hp, MessageTable.diskVisible, hdetached]

namespace Database

variable {db : Database} {env : Environment} {mutate : StorageSnapshot → Mutation}

/-- The database when its mutation is done and before anything is stored. -/
def prepared (env : Environment) (mutate : StorageSnapshot → Mutation) (db : Database) : Database :=
  { db with cached := db.snapshot env.now, stale := false, savepoints := db.records :: db.savepoints }.mutated env
    (mutate (db.snapshot env.now))

def plan (env : Environment) (mutate : StorageSnapshot → Mutation) (db : Database) : List Statement :=
  statements (db.prepared env mutate).fullReset (db.prepared env mutate).cached

def Strikes (env : Environment) (mutate : StorageSnapshot → Mutation) (db : Database) : Prop :=
  env.faults.beginFails = true ∨ (db.stale = true ∧ env.faults.loadFails = true) ∨ env.faults.mutationThrows = true ∨
  (∃ n, env.faults.statementFails = some n ∧ n ≤ (db.plan env mutate).length ∧ db.plan env mutate ≠ []) ∨
  env.faults.commitFails = true

theorem start (h : Resting db) (now : ℤ) : Start db.records (db.snapshot now) := by
  unfold snapshot
  cases hstale : db.stale with
  | false =>
    simp only [Bool.false_eq_true, if_false]
    exact ⟨h.quiet, h.attached hstale, h.rows hstale⟩
  | true =>
    obtain ⟨s, hload, hrows, hprevious, hmessages⟩ := loadSnapshot_spec now h.wellFormed
    simp only [if_true, hload, Option.getD_some]
    exact ⟨⟨hprevious, by rw [hmessages]; rfl, by rw [hmessages]; rfl⟩, by rw [hmessages]; rfl, hrows⟩

theorem refreshSnapshot_spec (h : Resting db) (savepoints : List Records) :
    { db with savepoints := savepoints }.refreshSnapshot env =
      if db.stale = true ∧ env.faults.loadFails = true then ({ db with savepoints := savepoints }, false)
      else ({ db with cached := db.snapshot env.now, stale := false, savepoints := savepoints }, true) := by
  obtain ⟨s, hload, -⟩ := loadSnapshot_spec env.now h.wellFormed
  obtain ⟨records, savepoints₀, cached, shelved, stale, fullReset⟩ := db
  unfold refreshSnapshot snapshot
  cases stale with
  | false => simp
  | true =>
    simp only at hload
    cases hfails : env.faults.loadFails with
    | false => simp [hload]
    | true => simp [hload]

theorem mutated_records (env : Environment) (m : Mutation) (db : Database) :
    (db.mutated env m).records = db.records ∧ (db.mutated env m).savepoints = db.savepoints ∧
      (db.mutated env m).stale = db.stale := by
  unfold mutated
  cases m.replacement with
  | none => exact ⟨rfl, rfl, rfl⟩
  | some r => exact ⟨rfl, rfl, rfl⟩

theorem persist_spec (env : Environment) (db : Database) :
    db.persist env =
      if ∃ n, env.faults.statementFails = some n ∧ n ≤ (statements db.fullReset db.cached).length ∧
          statements db.fullReset db.cached ≠ [] then (db, false)
      else ({ db with records := Statement.execAll (statements db.fullReset db.cached) db.records }, true) := by
  unfold persist
  generalize statements db.fullReset db.cached = plan
  cases plan with
  | nil => simp [Statement.execAll]
  | cons st l =>
    simp only [List.isEmpty_cons, Bool.false_eq_true, if_false, writeTransaction, endTransaction, execute]
    cases hfault : env.faults.statementFails with
    | none => simp
    | some n =>
      by_cases hn : n ≤ l.length + 1
      · simp [hn]
      · simp [hn]

theorem prepared_inWrite (h : Resting db) (env : Environment) (mutate : StorageSnapshot → Mutation) :
    InWrite db.records (db.snapshot env.now)
      ((db.prepared env mutate).shelved.getD (db.prepared env mutate).cached) := by
  have hrun := (start h env.now).inWrite.run env.sorters (mutate (db.snapshot env.now)).changes
  unfold prepared mutated
  cases (mutate (db.snapshot env.now)).replacement with
  | none =>
    simp only [h.shelved, Option.getD_none]
    exact hrun
  | some r => exact hrun

/-- **A write goes through exactly when no fault strikes**; one that fails leaves the rows, and in memory a snapshot to
roll back. -/
theorem write_spec (h : Resting db) (env : Environment) (mutate : StorageSnapshot → Mutation) :
    (¬ db.Strikes env mutate ∧ db.write env mutate =
      ({ records := Statement.execAll (db.plan env mutate) db.records
         savepoints := db.savepoints
         cached := (db.prepared env mutate).cached.commit
         shelved := none
         stale := false
         fullReset := false }, true)) ∨
    (db.Strikes env mutate ∧ ∃ stale s, db.write env mutate =
      ({ db with cached := s.rollback, stale := stale }, false) ∧
      ((stale = db.stale ∧ s = db.cached) ∨ (stale = false ∧ InWrite db.records (db.snapshot env.now) s))) := by
  have hstart := db.start h env.now
  by_cases hbegin : env.faults.beginFails = true
  · right
    refine ⟨.inl hbegin, db.stale, db.cached, ?_, .inl ⟨rfl, rfl⟩⟩
    simp [write, writeTransaction, finish, hbegin, h.shelved]
  · by_cases hload : db.stale = true ∧ env.faults.loadFails = true
    · right
      refine ⟨.inr (.inl hload), db.stale, db.cached, ?_, .inl ⟨rfl, rfl⟩⟩
      simp only [write, writeTransaction, hbegin, refreshSnapshot_spec h, if_pos hload]
      simp [endTransaction, finish, h.shelved]
    · obtain ⟨hrecords, hsavepoints, hstale⟩ := mutated_records env (mutate (db.snapshot env.now))
        { db with cached := db.snapshot env.now, stale := false, savepoints := db.records :: db.savepoints }
      have hinWrite := prepared_inWrite h env mutate
      change (db.prepared env mutate).records = db.records at hrecords
      change (db.prepared env mutate).savepoints = db.records :: db.savepoints at hsavepoints
      change (db.prepared env mutate).stale = false at hstale
      have hbody : db.write env mutate =
          finish db.fullReset (endTransaction env.faults.commitFails
            (if env.faults.mutationThrows then (db.prepared env mutate, false)
              else (db.prepared env mutate).persist env)) := by
        simp only [write, writeTransaction, hbegin, refreshSnapshot_spec h, if_neg hload]
        rfl
      rw [hbody, persist_spec]
      by_cases hthrows : env.faults.mutationThrows = true
      · right
        refine ⟨.inr (.inr (.inl hthrows)), false, _, ?_, .inr ⟨rfl, hinWrite⟩⟩
        simp [hthrows, endTransaction, finish, hsavepoints, hstale, h.shelved]
      · simp only [hthrows]
        by_cases hstatement : ∃ n, env.faults.statementFails = some n ∧
            n ≤ (statements (db.prepared env mutate).fullReset (db.prepared env mutate).cached).length ∧
            statements (db.prepared env mutate).fullReset (db.prepared env mutate).cached ≠ []
        · right
          refine ⟨.inr (.inr (.inr (.inl hstatement))), false, _, ?_, .inr ⟨rfl, hinWrite⟩⟩
          rw [if_pos hstatement]
          simp [endTransaction, finish, hsavepoints, hstale, h.shelved]
        · rw [if_neg hstatement]
          by_cases hcommit : env.faults.commitFails = true
          · right
            refine ⟨.inr (.inr (.inr (.inr hcommit))), false, _, ?_, .inr ⟨rfl, hinWrite⟩⟩
            simp [hcommit, endTransaction, finish, hsavepoints, hstale, h.shelved]
          · left
            refine ⟨?_, ?_⟩
            · rintro (hb | hl | ht | hs | hc)
              · exact hbegin hb
              · exact hload hl
              · exact hthrows ht
              · exact hstatement hs
              · exact hcommit hc
            · simp [hcommit, endTransaction, finish, hsavepoints, hstale, hrecords, plan]

/-- **Whole or not at all.**  After success memory reads the rows of the disk, which are those that the mutation left;
after a failure disk and memory are as they were. -/
def Atomic (env : Environment) (mutate : StorageSnapshot → Mutation) (db : Database) : Prop :=
  if (db.write env mutate).2 = true then
    SameRows (db.write env mutate).1.records (db.write env mutate).1.cached ∧
    Quiet (db.write env mutate).1.cached ∧
    Holds db.records (db.prepared env mutate).cached (db.write env mutate).1.records
  else
    (db.write env mutate).1.records = db.records ∧
    SameMemory db.records db.records (db.snapshot env.now) ((db.write env mutate).1.snapshot env.now)

/-- The updated messages fit into the cache of the messages when the commit comes to them. -/
def Fitting (env : Environment) (mutate : StorageSnapshot → Mutation) (db : Database) : Prop :=
  ¬ db.Strikes env mutate →
    MessageTable.Fits (db.prepared env mutate).cached.messages.cacheBefore
      (db.prepared env mutate).cached.messages.pending.entries

theorem prepared_holds (h : Resting db) (env : Environment) (mutate : StorageSnapshot → Mutation) :
    Holds db.records (db.prepared env mutate).cached (Statement.execAll (db.plan env mutate) db.records) := by
  have hstart := db.start h env.now
  have hrun := hstart.inWrite.run env.sorters (mutate (db.snapshot env.now)).changes
  unfold plan prepared mutated
  cases (mutate (db.snapshot env.now)).replacement with
  | none =>
    simp only [h.fullReset]
    exact hrun.holds hstart
  | some rep => exact rep.holds db.records

theorem prepared_coherent (h : Resting db) (env : Environment) (mutate : StorageSnapshot → Mutation)
    (hkeep : ((db.prepared env mutate).cached.messages.clearPending ||
      (db.prepared env mutate).cached.messages.detached) = false) :
    (db.prepared env mutate).cached.messages.Coherent (some (messageRows db.records)) := by
  have hrun := (start h env.now).inWrite.run env.sorters (mutate (db.snapshot env.now)).changes
  unfold prepared mutated at *
  cases hrep : (mutate (db.snapshot env.now)).replacement with
  | none => exact hrun.coherent
  | some rep =>
    have hdetached : rep.snapshot.markAll.messages.detached = true := rep.detached
    simp [hrep, hdetached] at hkeep

theorem sameMemory_of_failed (h : Resting db) {env : Environment} {stale : Bool} {s : StorageSnapshot}
    (hs : (stale = db.stale ∧ s = db.cached) ∨ (stale = false ∧ InWrite db.records (db.snapshot env.now) s)) :
    SameMemory db.records db.records (db.snapshot env.now)
        ({ db with cached := s.rollback, stale := stale }.snapshot env.now) ∧
      Resting { db with cached := s.rollback, stale := stale } := by
  have hstart := db.start h env.now
  have hreturned : ∀ t : StorageSnapshot, stale = false → InWrite db.records (db.snapshot env.now) t → s = t →
      SameMemory db.records db.records (db.snapshot env.now)
        ({ db with cached := s.rollback, stale := stale }.snapshot env.now) ∧
      Resting { db with cached := s.rollback, stale := stale } := by
    rintro t rfl hin rfl
    obtain ⟨hmemory, hrest⟩ := hin.rollback hstart
    refine ⟨by simpa [snapshot] using hmemory, h.shelved, h.fullReset, hrest.quiet, h.wellFormed, fun _ =>
      hrest.attached,
      fun _ => hrest.rows⟩
  rcases hs with ⟨rfl, rfl⟩ | ⟨hstale, hin⟩
  · cases hstale : db.stale with
    | false =>
      have hsame : db.snapshot env.now = db.cached := by simp [snapshot, hstale]
      have hin : InWrite db.records (db.snapshot env.now) db.cached := by
        rw [hsame] at hstart ⊢
        exact hstart.inWrite
      rw [← hstale]
      exact hreturned db.cached hstale hin rfl
    | true =>
      obtain ⟨s, hload, -⟩ := loadSnapshot_spec env.now h.wellFormed
      have hsame : { db with cached := db.cached.rollback, stale := true }.snapshot env.now = db.snapshot env.now := by
        simp [snapshot, hstale, hload]
      rw [hsame]
      refine ⟨⟨fun _ _ => rfl, fun _ => rfl, fun _ => rfl, rfl, rfl⟩, h.shelved, h.fullReset,
        ⟨fun _ => rfl, rfl, rfl⟩, h.wellFormed, ?_, ?_⟩
      · intro hfalse
        cases hfalse
      · intro hfalse
        cases hfalse
  · exact hreturned s hstale hin rfl

theorem atomic_iff (h : Resting db) (env : Environment) (mutate : StorageSnapshot → Mutation) :
    Atomic env mutate db ↔ Fitting env mutate db := by
  unfold Atomic Fitting
  rcases write_spec h env mutate with ⟨hspared, hwrite⟩ | ⟨hstrikes, stale, s, hwrite, hs⟩
  · have hholds := prepared_holds h env mutate
    have hiff := hholds.sameRows_iff (prepared_coherent h env mutate)
    rw [hwrite]
    simp only [if_true, hiff]
    constructor
    · exact fun hatomic _ => hatomic.1
    · exact fun hfits => ⟨hfits hspared, ⟨fun _ => rfl, rfl, rfl⟩, hholds⟩
  · rw [hwrite]
    simp only [Bool.false_eq_true, if_false]
    constructor
    · exact fun _ hspared => absurd hstrikes hspared
    · exact fun _ => ⟨trivial, (sameMemory_of_failed h hs).1⟩

theorem write_resting (h : Resting db) (env : Environment) (mutate : StorageSnapshot → Mutation)
    (hfit : Fitting env mutate db) : Resting (db.write env mutate).1 := by
  rcases write_spec h env mutate with ⟨hspared, hwrite⟩ | ⟨hstrikes, stale, s, hwrite, hs⟩
  · have hholds := prepared_holds h env mutate
    have hrows := (hholds.sameRows_iff (prepared_coherent h env mutate)).2 (hfit hspared)
    rw [hwrite]
    exact ⟨rfl, rfl, ⟨fun _ => rfl, rfl, rfl⟩, hholds.wellFormed, fun _ => rfl, fun _ => hrows⟩
  · rw [hwrite]
    exact (sameMemory_of_failed h hs).2

end Database

end Storage
end SecureChat
