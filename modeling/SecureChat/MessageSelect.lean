import SecureChat.MessageTable
/-!
# MessageSelect — a selection against a scan of the whole table

`Scan` merges the pending changes over the rows of the disk, filters by the test, sorts and takes the limit.  The
statement takes its limit before the test is asked, so `select` agrees with the scan exactly when the rows that the
statement leaves out have enough accepted rows before them (`select_iff`); without a limit (`covered_of_no_limit`) and
with a clause that selects no more than the test accepts (`covered_of_exact`) they always have.
-/
namespace SecureChat
namespace Storage
namespace MessageTable

open GroupControl (Text)
open MessageQuery (Sorters NoLater)

/-- A table over the rows of a disk, its cache holding rows of that disk. -/
structure Connected where
  disk : Option MessageRows
  table : MessageTable
  coherent : table.Coherent disk

def diskRows (disk : Option MessageRows) (t : MessageTable) : List MessageRow :=
  if t.diskVisible disk then disk.elim [] fun rows => rows.entries else []

def merged (disk : Option MessageRows) (t : MessageTable) : List MessageRow :=
  ((t.diskRows disk).filter fun row => (t.pending.get row.1).isNone) ++
    t.pending.entries.filterMap fun entry => entry.2.map fun m => (entry.1, m)

/-- **A plain scan**: merge, filter, sort, take the limit. -/
def Scan (disk : Option MessageRows) (q : MessageQuery) (t : MessageTable) (out : List MessageEntity) : Prop :=
  ∃ sorted, Sorts (NoLater q.newestFirst) (((t.merged disk).map Prod.snd).filter q.accept) sorted ∧
    out = q.limit.elim sorted fun n => sorted.take n.toNat

variable {sorters : Sorters} {disk : Option MessageRows} {t : MessageTable} {q : MessageQuery}

def fetched (sorters : Sorters) (disk : Option MessageRows) (q : MessageQuery) (t : MessageTable) : List MessageRow :=
  (t.answer sorters disk q).take (t.sqlLimit q (t.answer sorters disk q))

def cutOff (sorters : Sorters) (disk : Option MessageRows) (q : MessageQuery) (t : MessageTable) : List MessageRow :=
  (t.answer sorters disk q).drop (t.sqlLimit q (t.answer sorters disk q))

/-- The accepted messages among what the statement fetched and what is pending. -/
def visible (sorters : Sorters) (disk : Option MessageRows) (q : MessageQuery) (t : MessageTable) :
    List MessageEntity :=
  ((t.fetched sorters disk q).filter (t.kept q) ++ t.pending.entries.filterMap (keptPending q)).map Prod.snd

/-- Every accepted row that the statement left out has as many visible messages at or before its time as the limit. -/
def Covered (sorters : Sorters) (disk : Option MessageRows) (q : MessageQuery) (t : MessageTable) : Prop :=
  ∀ n, q.limit = some n → 0 < n → ∀ row ∈ t.cutOff sorters disk q, t.kept q row = true →
    n.toNat ≤ (t.visible sorters disk q).countP fun m => decide (NoLater q.newestFirst m row.2)

theorem answer_perm : (t.answer sorters disk q).Perm ((t.diskRows disk).filter fun row => q.clause row.2) := by
  unfold answer diskRows
  split
  · exact ((sorters.sql q.newestFirst).sorts _).1
  · exact List.Perm.refl _

theorem answer_sorted (sorters : Sorters) (disk : Option MessageRows) (q : MessageQuery) (t : MessageTable) :
    (t.answer sorters disk q).Pairwise fun a b => NoLater q.newestFirst a.2 b.2 := by
  unfold answer
  split
  · exact ((sorters.sql q.newestFirst).sorts _).2
  · exact List.Pairwise.nil

theorem diskRows_get {rows : MessageRows} {row : MessageRow} (h : row ∈ t.diskRows (some rows)) :
    rows.get row.1 = some row.2 := by
  unfold diskRows at h
  split at h
  · exact Table.get_eq_some.2 h
  · cases h

theorem diskRows_nodup : ((t.diskRows disk).map Prod.fst).Nodup := by
  unfold diskRows
  split
  · cases disk with
    | none => exact List.nodup_nil
    | some rows => exact rows.nodup
  · exact List.nodup_nil

theorem answer_nodup : ((t.answer sorters disk q).map Prod.fst).Nodup :=
  (answer_perm.map Prod.fst).nodup_iff.2 ((List.filter_sublist.map Prod.fst).nodup diskRows_nodup)

theorem fetched_fold (sorters : Sorters) (q : MessageQuery) (h : t.Coherent disk) :
    ∃ found t', (t.fetched sorters disk q).foldl (visit q) (.empty, t) = (found, t') ∧ SameChanges t t' ∧
      t'.Coherent disk ∧ found.entries.Perm ((t.fetched sorters disk q).filter (t.kept q)) := by
  cases disk with
  | none =>
    have hnone : t.fetched sorters none q = [] := by simp [fetched, answer, diskVisible]
    rw [hnone]
    exact ⟨.empty, t, rfl, .refl t, h, List.Perm.refl _⟩
  | some rows =>
    have hrows : ∀ row ∈ t.fetched sorters (some rows) q, rows.get row.1 = some row.2 := by
      intro row hrow
      have hanswer : row ∈ t.answer sorters (some rows) q := List.mem_of_mem_take hrow
      exact diskRows_get (List.mem_filter.1 (answer_perm.mem_iff.1 hanswer)).1
    have hnodup : ((t.fetched sorters (some rows) q).map Prod.fst).Nodup :=
      ((List.take_sublist _ _).map Prod.fst).nodup answer_nodup
    obtain ⟨found, t', hfold, hp, hc, hperm⟩ :=
      foldl_visit q h hrows hnodup (fun row _ => Table.get_empty (k := row.1))
    exact ⟨found, t', hfold, hp, hc, by simpa [Table.empty] using hperm⟩

theorem select_eq (sorters : Sorters) (h : t.Coherent disk) (hlimit : ∀ n, q.limit = some n → 0 < n) :
    ∃ l, l.Perm (t.visible sorters disk q) ∧
      (t.select sorters disk q).1 = q.limited ((sorters.dart q.newestFirst).sort l) := by
  have hpos : ¬ (q.limit.any fun n => decide (n ≤ 0)) = true := by
    intro hany
    obtain ⟨n, hn, hle⟩ := (Option.any_eq_true _ _).1 hany
    have hlt : 0 < n := hlimit n hn
    have hnot : n ≤ 0 := of_decide_eq_true hle
    omega
  obtain ⟨found, t', hfold, hp, -, hperm⟩ := fetched_fold sorters q h
  have hfresh : ∀ entry ∈ t.pending.entries, found.get entry.1 = none := by
    intro entry hentry
    refine Table.get_eq_none.2 fun hmem => ?_
    obtain ⟨row, hrow, hid⟩ := List.mem_map.1 hmem
    have hkept : t.kept q row = true := (List.mem_filter.1 (hperm.mem_iff.1 hrow)).2
    have hget : t.pending.get row.1 = some entry.2 := Table.get_eq_some.2 (hid ▸ hentry)
    simp [kept, hget] at hkept
  refine ⟨(t.pending.entries.foldl (lay q) found).values, ?_, ?_⟩
  · have hlay := (foldl_lay q t.pending.nodup hfresh).trans (hperm.append_right _)
    exact hlay.map Prod.snd
  · unfold fetched at hfold
    unfold select
    rw [if_neg hpos]
    simp only [hfold, hp.pending]

theorem merged_perm (sorters : Sorters) (disk : Option MessageRows) (t : MessageTable) (hq : q.Implied) :
    (((t.merged disk).map Prod.snd).filter q.accept).Perm
      (t.visible sorters disk q ++ ((t.cutOff sorters disk q).filter (t.kept q)).map Prod.snd) := by
  have hdisk : ((t.diskRows disk).filter (t.kept q)).Perm
      ((t.fetched sorters disk q).filter (t.kept q) ++ (t.cutOff sorters disk q).filter (t.kept q)) := by
    have hclause : (t.diskRows disk).filter (t.kept q) =
        ((t.diskRows disk).filter fun row => q.clause row.2).filter (t.kept q) := by
      rw [List.filter_filter]
      refine List.filter_congr fun row _ => ?_
      cases hk : t.kept q row with
      | false => rfl
      | true =>
        have haccept : q.accept row.2 = true := by
          simp only [kept, Bool.and_eq_true] at hk
          exact hk.2
        simp [hq row.2 haccept]
    rw [hclause, fetched, cutOff, ← List.filter_append, List.take_append_drop]
    exact (answer_perm.symm).filter _
  have hpending : ((t.pending.entries.filterMap fun entry => entry.2.map fun m => (entry.1, m)).map Prod.snd).filter
      q.accept = (t.pending.entries.filterMap (keptPending q)).map Prod.snd := by
    rw [List.map_filterMap, List.filter_filterMap, List.map_filterMap]
    refine List.filterMap_congr fun entry _ => ?_
    cases hm : entry.2 with
    | none => simp [keptPending, hm]
    | some m => by_cases haccept : q.accept m = true <;> simp [keptPending, hm, haccept, Option.filter]
  have hrows : (((t.diskRows disk).filter fun row => (t.pending.get row.1).isNone).map Prod.snd).filter q.accept =
      ((t.diskRows disk).filter (t.kept q)).map Prod.snd := by
    rw [List.filter_map, List.filter_filter]
    congr 1
    refine List.filter_congr fun row _ => ?_
    simp [kept, Bool.and_comm]
  unfold merged visible
  rw [List.map_append, List.filter_append, hrows, hpending, List.map_append, List.append_assoc]
  refine ((hdisk.map Prod.snd).append_right _).trans ?_
  rw [List.map_append, List.append_assoc]
  exact List.Perm.append_left _ List.perm_append_comm

theorem limited_eq {l : List MessageEntity} (q : MessageQuery) :
    q.limited l = q.limit.elim l fun n => l.take n.toNat := by
  unfold MessageQuery.limited
  cases q.limit with
  | none => rfl
  | some n =>
    simp only [Option.elim_some]
    split
    · exact (List.take_of_length_le (by omega)).symm
    · rfl

/-- **A selection is the scan exactly when it is covered**, with a clause that the test implies. -/
theorem select_iff (sorters : Sorters) (c : Connected) (q : MessageQuery) (hq : q.Implied) :
    Scan c.disk q c.table (c.table.select sorters c.disk q).1 ↔ Covered sorters c.disk q c.table := by
  obtain ⟨disk, t, hcoherent⟩ := c
  simp only
  by_cases hlimit : ∀ n, q.limit = some n → 0 < n
  · obtain ⟨l, hl, hselect⟩ := select_eq sorters hcoherent hlimit
    have hsorts : Sorts (NoLater q.newestFirst) (t.visible sorters disk q) ((sorters.dart q.newestFirst).sort l) :=
      ((sorters.dart q.newestFirst).sorts l).of_perm hl
    rw [hselect, limited_eq]
    unfold Scan Covered
    cases hn : q.limit with
    | none =>
      have hcut : t.cutOff sorters disk q = [] := by simp [cutOff, sqlLimit, hn]
      have hmerged := merged_perm sorters disk t hq
      rw [hcut, List.filter_nil, List.map_nil, List.append_nil] at hmerged
      constructor
      · intro _ n h
        cases h
      · intro _
        exact ⟨_, hsorts.of_perm hmerged.symm, rfl⟩
    | some n =>
      have hmerged : ∀ s, Sorts (NoLater q.newestFirst) (((t.merged disk).map Prod.snd).filter q.accept) s ↔
          Sorts (NoLater q.newestFirst)
            (t.visible sorters disk q ++ ((t.cutOff sorters disk q).filter (t.kept q)).map Prod.snd) s :=
        fun s => ⟨fun h => h.of_perm (merged_perm sorters disk t hq), fun h => h.of_perm (merged_perm sorters disk t hq).symm⟩
      have htake := hsorts.take_append_iff (((t.cutOff sorters disk q).filter (t.kept q)).map Prod.snd) n.toNat
      simp only [hmerged, Option.elim_some, eq_comm (a := List.take n.toNat ((sorters.dart q.newestFirst).sort l))]
      rw [htake]
      constructor
      · rintro h _ ⟨rfl⟩ - row hrow hkept
        exact h row.2 (List.mem_map_of_mem (List.mem_filter.2 ⟨hrow, hkept⟩))
      · intro h c hc
        obtain ⟨row, hrow, rfl⟩ := List.mem_map.1 hc
        obtain ⟨hrow, hkept⟩ := List.mem_filter.1 hrow
        exact h n rfl (hlimit n hn) row hrow hkept
  · push Not at hlimit
    obtain ⟨n, hn, hle⟩ := hlimit
    have hempty : (t.select sorters disk q).1 = [] := by simp [select, hn, hle]
    have hzero : n.toNat = 0 := by omega
    constructor
    · intro _ k hk hpos
      have hnk : n = k := Option.some.inj (hn.symm.trans hk)
      omega
    · intro _
      exact ⟨_, (Sorts.stable _).sorts _, by simp [hempty, hn, hzero]⟩

def received (id : Text) (timestamp : ℤ) (isStarred : Bool) : MessageEntity :=
  { id := id, conversationId := "c".toList, senderId := "p".toList, content := "hi".toList, contentType := .text,
    timestamp := timestamp, status := .delivered, isOutgoing := false, isStarred := isStarred }

def newestStarred (sqlWhere : Option (MessageEntity → Bool)) : MessageQuery :=
  { conversationId := none, sqlWhere := sqlWhere, test := some MessageEntity.isStarred, newestFirst := true,
    limit := some 1 }

def twoMessages : MessageRows :=
  (Table.empty.put "a".toList (received "a".toList 1 true)).put "b".toList (received "b".toList 2 false)

def removingNewest : Connected where
  disk := some twoMessages
  table := { MessageTable.connected with pending := Table.empty.put "b".toList none }
  coherent := fun _ _ _ _ h => by cases h

theorem select_iff_removing :
    Scan removingNewest.disk (newestStarred (some MessageEntity.isStarred)) removingNewest.table
      (removingNewest.table.select .stable removingNewest.disk (newestStarred (some MessageEntity.isStarred))).1 := by
  have himplied : (newestStarred (some MessageEntity.isStarred)).Implied := fun m h => h
  refine (select_iff .stable removingNewest _ himplied).2 ?_
  intro n hn hpos row hrow
  have hnone : removingNewest.table.cutOff .stable removingNewest.disk
      (newestStarred (some MessageEntity.isStarred)) = [] := by decide +kernel
  rw [hnone] at hrow
  cases hrow

/-- **The newest message is not starred and fills the limit**: the starred one before it is missed. -/
theorem select_misses_starred :
    ¬ ∀ (sorters : Sorters) (c : Connected) (q : MessageQuery), q.Implied →
      Scan c.disk q c.table (c.table.select sorters c.disk q).1 := by
  intro h
  have himplied : (newestStarred none).Implied := fun _ _ => rfl
  have hcoherent : MessageTable.connected.Coherent (some twoMessages) := by
    intro _ _ _ _ hget
    cases hget
  obtain ⟨sorted, hsorts, hout⟩ := h .stable ⟨some twoMessages, .connected, hcoherent⟩ (newestStarred none) himplied
  have hselect : (MessageTable.connected.select .stable (some twoMessages) (newestStarred none)).1 = [] := by
    decide +kernel
  have hmerged : ((MessageTable.connected.merged (some twoMessages)).map Prod.snd).filter (newestStarred none).accept =
      [received "a".toList 1 true] := by decide +kernel
  simp only [hmerged] at hsorts
  have hsorted : sorted = [received "a".toList 1 true] := List.perm_singleton.1 hsorts.1
  rw [hselect, hsorted] at hout
  simp [newestStarred] at hout

theorem countP_pending_le {l : List MessageRow} (h : (l.map Prod.fst).Nodup) :
    l.countP (fun row => (t.pending.get row.1).isSome) ≤ t.pending.card := by
  have hsub : ((l.filter fun row => (t.pending.get row.1).isSome).map Prod.fst).Subperm
      (t.pending.entries.map Prod.fst) := by
    refine ((List.filter_sublist.map Prod.fst).nodup h).subperm fun id hid => ?_
    obtain ⟨row, hrow, rfl⟩ := List.mem_map.1 hid
    have hsome : (t.pending.get row.1).isSome = true := (List.mem_filter.1 hrow).2
    by_contra hnot
    rw [Table.get_eq_none.2 hnot] at hsome
    cases hsome
  have hlength := hsub.length_le
  rw [List.length_map, List.length_map, ← List.countP_eq_length_filter] at hlength
  exact hlength

/-- **A clause that selects what the test accepts and no more**: the statement's limit leaves room for every pending
change. -/
theorem covered_of_exact (hexact : ∀ row ∈ t.diskRows disk, q.clause row.2 = true → q.accept row.2 = true) :
    Covered sorters disk q t := by
  intro n hn hpos row hrow hkept
  have hlimit : t.sqlLimit q (t.answer sorters disk q) = n.toNat + t.pending.card := by
    simp only [sqlLimit, hn]
    omega
  have hsplit := List.take_append_drop (t.sqlLimit q (t.answer sorters disk q)) (t.answer sorters disk q)
  have hlength : (t.fetched sorters disk q).length = n.toNat + t.pending.card := by
    have hdrop : 0 < (t.cutOff sorters disk q).length := List.length_pos_of_mem hrow
    rw [cutOff, List.length_drop] at hdrop
    rw [fetched, List.length_take]
    omega
  have hbefore : ∀ x ∈ t.fetched sorters disk q, NoLater q.newestFirst x.2 row.2 := by
    have hsorted := answer_sorted sorters disk q t
    rw [← hsplit] at hsorted
    exact fun x hx => (List.pairwise_append.1 hsorted).2.2 x hx row hrow
  have haccepted : ∀ x ∈ t.fetched sorters disk q, q.accept x.2 = true := by
    intro x hx
    have hx := List.mem_filter.1 (answer_perm.mem_iff.1 (List.mem_of_mem_take hx))
    exact hexact x hx.1 hx.2
  have hpending : (t.fetched sorters disk q).countP (fun x => (t.pending.get x.1).isSome) ≤ t.pending.card :=
    countP_pending_le (((List.take_sublist _ _).map Prod.fst).nodup answer_nodup)
  have hkeep : n.toNat ≤ (t.fetched sorters disk q).countP (t.kept q) := by
    have htotal := List.length_eq_countP_add_countP (t.kept q) (l := t.fetched sorters disk q)
    have hnot : (t.fetched sorters disk q).countP (fun x => decide ¬ t.kept q x = true) ≤
        (t.fetched sorters disk q).countP fun x => (t.pending.get x.1).isSome := by
      refine List.countP_mono_left fun x hx hk => ?_
      have hnk : ¬ t.kept q x = true := of_decide_eq_true hk
      cases hp : t.pending.get x.1 with
      | some m => rfl
      | none => exact absurd (by simp [kept, hp, haccepted x hx]) hnk
    omega
  refine hkeep.trans ?_
  rw [visible, List.map_append, List.countP_append, List.countP_map, List.countP_filter]
  refine le_trans (List.countP_mono_left fun x hx hk => ?_) (Nat.le_add_right _ _)
  simp [hbefore x hx, hk]

end MessageTable
end Storage
end SecureChat
