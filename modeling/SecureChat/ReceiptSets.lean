import SecureChat.ControlFrames
/-!
# ReceiptSets — what the receipts of a message add up to

A message keeps whom it has reached and who has read it, in the order of their ids, and a status that sums both up.
After any receipts the row is the one that the set of accepted receipts gives (`Recorded`), so neither their order nor
their repetition matters.
-/
namespace SecureChat

/-! ## Tables -/

namespace Table

variable {κ β : Type} [DecidableEq κ] {t : Table κ β} {k : κ} {v w : β}

omit [DecidableEq κ] in
theorem eq_of_entries {t u : Table κ β} (h : t.entries = u.entries) : t = u := by
  cases t
  cases u
  cases h
  rfl

theorem assign_assign : (t.assign k v).assign k w = t.assign k w := by
  have hentries : ((t.assign k v).assign k w).entries = (t.assign k w).entries := by
    have hsome : ((t.assign k v).get k).isSome = true := by
      rw [get_assign_self]
      rfl
    show (if ((t.assign k v).get k).isSome = true then (t.assign k v).entries.map fun x => if x.1 = k then (k, w) else x
      else (t.assign k v).entries ++ [(k, w)]) = _
    rw [if_pos hsome]
    unfold assign
    simp only
    by_cases hk : (t.get k).isSome = true
    · rw [if_pos hk, if_pos hk, List.map_map]
      refine List.map_congr_left fun x _ => ?_
      by_cases hx : x.1 = k
      · simp [hx]
      · simp [hx]
    · rw [if_neg hk, if_neg hk, List.map_append]
      have hfresh : ¬ k ∈ t.entries.map Prod.fst := get_eq_none.1 (Option.not_isSome_iff_eq_none.1 hk)
      have hsame : (t.entries.map fun x => if x.1 = k then (k, w) else x) = t.entries := by
        refine (List.map_congr_left fun x hx => ?_).trans (List.map_id t.entries)
        exact if_neg fun (he : x.1 = k) => hfresh (he ▸ List.mem_map_of_mem hx)
      rw [hsame]
      simp
  exact eq_of_entries hentries

end Table

namespace Keyed

variable {κ β : Type} [DecidableEq κ] {key : β → κ} {t : Keyed key} {v w : β}

theorem eq_of_rows {t u : Keyed key} (h : t.rows = u.rows) : t = u := by
  cases t
  cases u
  cases h
  rfl

theorem insert_insert (h : key v = key w) : (t.insert v).insert w = t.insert w := by
  have hrows : ((t.insert v).insert w).rows = (t.insert w).rows := by
    show (t.rows.assign (key v) v).assign (key w) w = t.rows.assign (key w) w
    rw [h, Table.assign_assign]
  exact eq_of_rows hrows

end Keyed

namespace ChatControl

open GroupControl (Text trim)
open Storage (ConversationEntity StorageMessageStatus)

/-! ## The order of ids -/

theorem codeUnits_cons (c : Char) (t : Text) : codeUnits (c :: t) =
    (if c.toNat < 0x10000 then [c.toNat]
      else [0xD800 + (c.toNat - 0x10000) / 0x400, 0xDC00 + (c.toNat - 0x10000) % 0x400]) ++ codeUnits t := rfl

theorem codeUnits_inj : ∀ {t u : Text}, codeUnits t = codeUnits u → t = u
  | [], [], _ => rfl
  | [], c :: u, h => by
    rw [codeUnits_cons] at h
    split at h
    · cases h
    · cases h
  | c :: t, [], h => by
    rw [codeUnits_cons] at h
    split at h
    · cases h
    · cases h
  | c :: t, d :: u, h => by
    rw [codeUnits_cons, codeUnits_cons] at h
    have hc : c.toNat < 0xD800 ∨ 0xDFFF < c.toNat ∧ c.toNat < 0x110000 := c.valid
    have hd : d.toNat < 0xD800 ∨ 0xDFFF < d.toNat ∧ d.toNat < 0x110000 := d.valid
    have hchar : c.toNat = d.toNat ∧ codeUnits t = codeUnits u := by
      split at h
      · split at h
        · exact ⟨(List.cons.inj h).1, (List.cons.inj h).2⟩
        · have hhead := (List.cons.inj h).1
          omega
      · split at h
        · have hhead := (List.cons.inj h).1
          omega
        · obtain ⟨hhead, htail⟩ := List.cons.inj h
          obtain ⟨hlow, htail⟩ := List.cons.inj htail
          exact ⟨by omega, htail⟩
    rw [Char.toNat_inj.1 hchar.1, codeUnits_inj hchar.2]

theorem sorted_congr {a b : LinkedSet Text} (h : ∀ x, x ∈ a ↔ x ∈ b) : sorted a = sorted b := by
  have hperm : (sorted a).Perm (sorted b) :=
    (List.perm_insertionSort _ _).trans (((List.perm_ext_iff_of_nodup a.nodup b.nodup).2 h).trans
      (List.perm_insertionSort _ _).symm)
  have : Std.Total fun x y : Text => codeUnits x ≤ codeUnits y := ⟨fun x y => le_total _ _⟩
  have : IsTrans Text fun x y => codeUnits x ≤ codeUnits y := ⟨fun _ _ _ => le_trans⟩
  exact hperm.eq_of_pairwise (fun x y _ _ hxy hyx => codeUnits_inj (le_antisymm hxy hyx))
    (List.pairwise_insertionSort _ _) (List.pairwise_insertionSort _ _)

theorem aggregate_congr {expected : Option (List Text)} {r r' s s' : LinkedSet Text} (hr : ∀ x, x ∈ r ↔ x ∈ r')
    (hs : ∀ x, x ∈ s ↔ x ∈ s') : aggregate expected r s = aggregate expected r' s' := by
  have hr : (fun id => decide (id ∈ r)) = fun id => decide (id ∈ r') := funext fun id => decide_eq_decide.2 (hr id)
  have hs : (fun id => decide (id ∈ s)) = fun id => decide (id ∈ s') := funext fun id => decide_eq_decide.2 (hs id)
  unfold aggregate
  rw [hr, hs]

/-! ## Receipts -/

structure Receipt where
  recipientId : Text
  isRead : Bool
deriving DecidableEq

def receive (messageId localUserId : Text) (d : Device) (r : Receipt) : Device :=
  (recordDeliveryReceipt messageId r.recipientId r.isRead localUserId d).getD d

def expectedOf (localUserId : Text) (ids : List Text) : List Text :=
  (trimmed ids).filter fun id => decide (id ≠ localUserId)

def counts (localUserId : Text) (ids : List Text) (c : ConversationEntity) (user : Text) : Bool :=
  ((expectedOf localUserId ids).any fun id => decide (id = user)) && (c.isGroup || decide (user = c.peerId))

section Sets

variable (localUserId : Text) (ids : List Text) (c : ConversationEntity)

def reached (rs : List Receipt) : LinkedSet Text :=
  .ofList ((rs.filter fun r => counts localUserId ids c r.recipientId).map Receipt.recipientId)

def readers (rs : List Receipt) : LinkedSet Text :=
  .ofList ((rs.filter fun r => counts localUserId ids c r.recipientId && r.isRead).map Receipt.recipientId)

def settled (m : Message) (rs : List Receipt) : Message :=
  { m with
    status := aggregate (some (expectedOf localUserId ids)) (readers localUserId ids c rs)
      (reached localUserId ids c rs)
    deliveredTo := sorted (reached localUserId ids c rs)
    readBy := sorted (readers localUserId ids c rs) }

end Sets

def noted (m : Message) (c : ConversationEntity) : ConversationEntity :=
  if c.lastMessageTimestamp = some m.timestamp then { c with lastMessageStatus := some m.status.name } else c

def written (m : Message) (c : ConversationEntity) (d : Device) : Device :=
  if c.lastMessageTimestamp = some m.timestamp then
    (d.setMessages (d.messages.insert m)).setConversations (d.conversations.insert (noted m c))
  else d.setMessages (d.messages.insert m)

/-- A message sent by the local user, without receipts. -/
structure Sent (messageId localUserId : Text) (ids : List Text) (d : Device) (m : Message) (c : ConversationEntity) :
    Prop where
  user : localUserId ≠ []
  stored : d.messages.get messageId = some m
  outgoing : m.isOutgoing = true
  sender : m.senderId = localUserId
  conversation : d.conversations.get m.conversationId = some c
  recorded : m.receiptRecipients = some ids
  status : m.status = .sent
  deliveredTo : m.deliveredTo = []
  readBy : m.readBy = []

section Steps

variable {messageId localUserId user : Text} {ids : List Text} {c c' : ConversationEntity} {m m' : Message}
  {d : Device} {rs : List Receipt} {isRead : Bool} {x : Text}

theorem any_eq_iff : (ids.any fun id => decide (id = user)) = true ↔ user ∈ ids := by
  simp only [List.any_eq_true, decide_eq_true_eq, exists_eq_right]

theorem mem_reached : x ∈ reached localUserId ids c rs ↔
    counts localUserId ids c x = true ∧ ∃ r ∈ rs, r.recipientId = x := by
  unfold reached
  rw [LinkedSet.mem_ofList, List.mem_map]
  constructor
  · rintro ⟨r, hr, rfl⟩
    obtain ⟨hr, hc⟩ := List.mem_filter.1 hr
    exact ⟨hc, r, hr, rfl⟩
  · rintro ⟨hc, r, hr, rfl⟩
    exact ⟨r, List.mem_filter.2 ⟨hr, hc⟩, rfl⟩

theorem mem_readers : x ∈ readers localUserId ids c rs ↔ counts localUserId ids c x = true ∧ ⟨x, true⟩ ∈ rs := by
  unfold readers
  rw [LinkedSet.mem_ofList, List.mem_map]
  constructor
  · rintro ⟨⟨user, isRead⟩, hr, rfl⟩
    obtain ⟨hr, hc⟩ := List.mem_filter.1 hr
    obtain ⟨hc, rfl⟩ := (Bool.and_eq_true _ _).mp hc |>.imp id id
    exact ⟨hc, hr⟩
  · rintro ⟨hc, hr⟩
    exact ⟨_, List.mem_filter.2 ⟨hr, by simp [hc]⟩, rfl⟩

theorem reached_of_readers (h : x ∈ readers localUserId ids c rs) : x ∈ reached localUserId ids c rs := by
  obtain ⟨hc, hr⟩ := mem_readers.1 h
  exact mem_reached.2 ⟨hc, _, hr, rfl⟩

theorem of_counts (h : counts localUserId ids c user = true) :
    user ∈ expectedOf localUserId ids ∧ user ≠ [] ∧ user ≠ localUserId ∧ (c.isGroup = false → user = c.peerId) := by
  unfold counts at h
  obtain ⟨hmem, hpeer⟩ := (Bool.and_eq_true _ _).mp h
  have hmem := any_eq_iff.1 hmem
  obtain ⟨htrimmed, hne⟩ := List.mem_filter.1 hmem
  refine ⟨hmem, of_decide_eq_true (List.mem_filter.1 htrimmed).2, of_decide_eq_true hne, fun hgroup => ?_⟩
  rw [hgroup, Bool.false_or] at hpeer
  exact of_decide_eq_true hpeer

theorem record_counts (huser : localUserId ≠ []) (hm : d.messages.get messageId = some m) (hout : m.isOutgoing = true)
    (hsender : m.senderId = localUserId) (hc : d.conversations.get m.conversationId = some c)
    (hrec : m.receiptRecipients = some ids) (h : counts localUserId ids c user = true) :
    recordDeliveryReceipt messageId user isRead localUserId d =
      some (written (received m c user isRead (some (expectedOf localUserId ids))) c d) := by
  obtain ⟨hmem, hne, hlocal, hpeer⟩ := of_counts h
  have hexpected : expectedRecipients m c user localUserId = some (some (expectedOf localUserId ids)) := by
    unfold expectedRecipients
    rw [hrec]
    exact if_pos hmem
  have hdirect : ¬ (¬ c.isGroup = true ∧ user ≠ c.peerId) := by
    rintro ⟨hgroup, hother⟩
    exact hother (hpeer (by simpa using hgroup))
  unfold recordDeliveryReceipt
  rw [if_neg (by simp [huser, hne, hlocal]), hm]
  simp only [hout, hsender, not_true_eq_false, ne_eq, or_self, if_false, hc, hdirect, hexpected]
  unfold written noted
  by_cases hlast : c.lastMessageTimestamp = some m.timestamp
  · simp only [received, hlast, if_true]
  · simp only [received, hlast, if_false]

theorem record_refused (hm : d.messages.get messageId = some m) (hc : d.conversations.get m.conversationId = some c)
    (hrec : m.receiptRecipients = some ids) (h : counts localUserId ids c user = false) :
    recordDeliveryReceipt messageId user isRead localUserId d = none := by
  unfold recordDeliveryReceipt
  split
  · rfl
  · rw [hm]
    simp only
    split
    · rfl
    · simp only [hc]
      split
      · rfl
      · next hpeer =>
        have hmem : user ∉ expectedOf localUserId ids := by
          intro hmem
          unfold counts at h
          rw [any_eq_iff.2 hmem, Bool.true_and, Bool.or_eq_false_iff] at h
          exact hpeer ⟨by simp [h.1], of_decide_eq_false h.2⟩
        have hexpected : expectedRecipients m c user localUserId = none := by
          unfold expectedRecipients
          rw [hrec]
          exact if_neg hmem
        simp only [hexpected]

theorem mem_receipts_settled (hrec : m.receiptRecipients = some ids) (h : counts localUserId ids c user = true) :
    (x ∈ (receipts (settled localUserId ids c m rs) c' user isRead).1 ↔
      x ∈ readers localUserId ids c (rs ++ [⟨user, isRead⟩])) ∧
    (x ∈ (receipts (settled localUserId ids c m rs) c' user isRead).2 ↔
      x ∈ reached localUserId ids c (rs ++ [⟨user, isRead⟩])) := by
  have hlegacy : ((settled localUserId ids c m rs).receiptRecipients.isNone && !c'.isGroup) = false := by
    show (m.receiptRecipients.isNone && !c'.isGroup) = false
    rw [hrec]
    rfl
  have hread : x ∈ (receipts (settled localUserId ids c m rs) c' user isRead).1 ↔
      x ∈ readers localUserId ids c rs ∨ isRead = true ∧ x = user := by
    unfold receipts
    simp only [hlegacy, Bool.false_eq_true, false_and, if_false]
    cases isRead with
    | true =>
      rw [if_pos rfl, LinkedSet.mem_insert, LinkedSet.mem_ofList]
      simp only [settled, mem_sorted, true_and]
    | false =>
      rw [if_neg Bool.false_ne_true, LinkedSet.mem_ofList]
      simp only [settled, mem_sorted, Bool.false_eq_true, false_and, or_false]
  have hreach : x ∈ (receipts (settled localUserId ids c m rs) c' user isRead).2 ↔
      x ∈ reached localUserId ids c rs ∨ x = user ∨
        x ∈ (receipts (settled localUserId ids c m rs) c' user isRead).1 := by
    unfold receipts
    simp only [hlegacy, Bool.false_eq_true, false_and, if_false]
    rw [mem_foldl_insert, LinkedSet.mem_insert, LinkedSet.mem_ofList]
    simp only [settled, mem_sorted, or_assoc]
    exact Iff.rfl
  rw [hreach, hread]
  constructor
  · rw [mem_readers, mem_readers, List.mem_append, List.mem_singleton, Receipt.mk.injEq]
    constructor
    · rintro (⟨hx, hr⟩ | ⟨rfl, rfl⟩)
      · exact ⟨hx, Or.inl hr⟩
      · exact ⟨h, Or.inr ⟨rfl, rfl⟩⟩
    · rintro ⟨hx, hr | ⟨rfl, hr⟩⟩
      · exact Or.inl ⟨hx, hr⟩
      · exact Or.inr ⟨hr.symm, rfl⟩
  · constructor
    · rintro (hx | rfl | hx | ⟨-, rfl⟩)
      · obtain ⟨hc, r, hr, he⟩ := mem_reached.1 hx
        exact mem_reached.2 ⟨hc, r, List.mem_append_left _ hr, he⟩
      · exact mem_reached.2 ⟨h, _, List.mem_append_right _ List.mem_cons_self, rfl⟩
      · obtain ⟨hc, r, hr, he⟩ := mem_reached.1 (reached_of_readers hx)
        exact mem_reached.2 ⟨hc, r, List.mem_append_left _ hr, he⟩
      · exact mem_reached.2 ⟨h, _, List.mem_append_right _ List.mem_cons_self, rfl⟩
    · intro hx
      obtain ⟨hc, r, hr, he⟩ := mem_reached.1 hx
      rcases List.mem_append.1 hr with hr | hr
      · exact Or.inl (mem_reached.2 ⟨hc, r, hr, he⟩)
      · cases List.mem_singleton.1 hr
        exact Or.inr (Or.inl he.symm)

theorem received_settled (hrec : m.receiptRecipients = some ids) (h : counts localUserId ids c user = true) :
    received (settled localUserId ids c m rs) c' user isRead (some (expectedOf localUserId ids)) =
      settled localUserId ids c m (rs ++ [⟨user, isRead⟩]) := by
  have hread : ∀ x, x ∈ (receipts (settled localUserId ids c m rs) c' user isRead).1 ↔
      x ∈ readers localUserId ids c (rs ++ [⟨user, isRead⟩]) := fun x => (mem_receipts_settled hrec h).1
  have hreach : ∀ x, x ∈ (receipts (settled localUserId ids c m rs) c' user isRead).2 ↔
      x ∈ reached localUserId ids c (rs ++ [⟨user, isRead⟩]) := fun x => (mem_receipts_settled hrec h).2
  unfold received
  simp only [sorted_congr hread, sorted_congr hreach, aggregate_congr hread hreach]
  rfl

theorem settled_of_none (h : Sent messageId localUserId ids d m c)
    (hrs : ∀ r ∈ rs, counts localUserId ids c r.recipientId = false) : settled localUserId ids c m rs = m := by
  have hreach : ∀ x, x ∈ reached localUserId ids c rs ↔ x ∈ (LinkedSet.empty : LinkedSet Text) := by
    intro x
    refine iff_of_false (fun hx => ?_) (LinkedSet.not_mem_empty x)
    obtain ⟨hc, r, hr, rfl⟩ := mem_reached.1 hx
    rw [hrs r hr] at hc
    cases hc
  have hread : ∀ x, x ∈ readers localUserId ids c rs ↔ x ∈ (LinkedSet.empty : LinkedSet Text) := fun x =>
    iff_of_false (fun hx => LinkedSet.not_mem_empty x ((hreach x).1 (reached_of_readers hx)))
      (LinkedSet.not_mem_empty x)
  have hstatus : aggregate (some (expectedOf localUserId ids)) .empty .empty = .sent := by
    unfold aggregate
    simp only [LinkedSet.not_mem_empty, decide_false]
    cases hids : expectedOf localUserId ids with
    | nil => rfl
    | cons a l => simp
  unfold settled
  rw [sorted_congr hreach, sorted_congr hread, aggregate_congr hread hreach, hstatus]
  have hs := h.status
  have hd := h.deliveredTo
  have hr := h.readBy
  clear h hrs hreach hread
  cases m
  dsimp only at hs hd hr
  rw [hs, hd, hr]
  rfl

theorem written_written (hid : m.id = m'.id) (ht : m.timestamp = m'.timestamp) :
    written m' (noted m c) (written m c d) = written m' c d := by
  have hmessages : (d.messages.insert m).insert m' = d.messages.insert m' := Keyed.insert_insert hid
  by_cases hlast : c.lastMessageTimestamp = some m.timestamp
  · have hnoted : noted m c = { c with lastMessageStatus := some m.status.name } := if_pos hlast
    have hlast' : (noted m c).lastMessageTimestamp = some m'.timestamp := by
      rw [hnoted, ← ht]
      exact hlast
    have hconversations : (d.conversations.insert (noted m c)).insert (noted m' (noted m c)) =
        d.conversations.insert (noted m' c) := by
      have hnoted' : noted m' (noted m c) = noted m' c := by
        unfold noted
        simp only [hlast, ← ht, if_true]
      rw [hnoted']
      refine Keyed.insert_insert ?_
      unfold noted
      simp only [hlast, ← ht, if_true]
    unfold written
    rw [if_pos hlast, if_pos hlast', ← ht, if_pos hlast]
    show (⟨_, _, _, _, _, _⟩ : Device) = ⟨_, _, _, _, _, _⟩
    exact congrArg₂ (fun a b => (d.setMessages b).setConversations a) hconversations hmessages
  · have hnoted : noted m c = c := if_neg hlast
    unfold written
    rw [hnoted, ← ht, if_neg hlast, if_neg hlast, if_neg hlast]
    exact congrArg d.setMessages hmessages

theorem get_written_message (hm : d.messages.get messageId = some m) (hid : m'.id = m.id) :
    (written m' c d).messages.get messageId = some m' := by
  have hkey : messageId = m'.id := (Keyed.key_of_get hm).symm.trans hid.symm
  unfold written
  split
  · exact (Keyed.get_insert).trans (if_pos hkey)
  · exact (Keyed.get_insert).trans (if_pos hkey)

theorem get_written_conversation {id : Text} (hc : d.conversations.get id = some c) :
    (written m' c d).conversations.get id = some (noted m' c) := by
  have hkey : id = c.id := (Keyed.key_of_get hc).symm
  unfold written noted
  split
  · exact (Keyed.get_insert).trans (if_pos hkey)
  · exact hc

/-! ## Runs -/

def after (localUserId : Text) (ids : List Text) (m : Message) (c : ConversationEntity) (d : Device)
    (rs : List Receipt) : Device :=
  if rs.any fun r => counts localUserId ids c r.recipientId then written (settled localUserId ids c m rs) c d else d

theorem after_refused {r : Receipt} (hr : counts localUserId ids c r.recipientId = false) :
    after localUserId ids m c d (rs ++ [r]) = after localUserId ids m c d rs := by
  have hreached : reached localUserId ids c (rs ++ [r]) = reached localUserId ids c rs := by
    unfold reached
    rw [List.filter_append, List.filter_cons_of_neg (by simp [hr]), List.filter_nil, List.append_nil]
  have hreaders : readers localUserId ids c (rs ++ [r]) = readers localUserId ids c rs := by
    unfold readers
    rw [List.filter_append, List.filter_cons_of_neg (by simp [hr]), List.filter_nil, List.append_nil]
  unfold after settled
  rw [List.any_append, hreached, hreaders]
  simp [hr]

theorem after_congr {rs' : List Receipt} (h : ∀ r, r ∈ rs ↔ r ∈ rs') :
    after localUserId ids m c d rs = after localUserId ids m c d rs' := by
  have hany : (rs.any fun r => counts localUserId ids c r.recipientId) =
      rs'.any fun r => counts localUserId ids c r.recipientId := by
    rw [Bool.eq_iff_iff, List.any_eq_true, List.any_eq_true]
    exact exists_congr fun r => and_congr_left fun _ => h r
  have hreached : ∀ x, x ∈ reached localUserId ids c rs ↔ x ∈ reached localUserId ids c rs' := by
    intro x
    rw [mem_reached, mem_reached]
    exact and_congr_right fun _ => exists_congr fun r => and_congr_left fun _ => h r
  have hreaders : ∀ x, x ∈ readers localUserId ids c rs ↔ x ∈ readers localUserId ids c rs' := by
    intro x
    rw [mem_readers, mem_readers, h]
  unfold after settled
  rw [hany, sorted_congr hreached, sorted_congr hreaders, aggregate_congr hreaders hreached]

theorem get_after (h : Sent messageId localUserId ids d m c) (rs : List Receipt) :
    (after localUserId ids m c d rs).messages.get messageId = some (settled localUserId ids c m rs) ∧
    ∃ c', (after localUserId ids m c d rs).conversations.get m.conversationId = some c' ∧
      (∀ user, counts localUserId ids c' user = counts localUserId ids c user) ∧
      ∀ m' : Message, m'.id = m.id → m'.timestamp = m.timestamp →
        written m' c' (after localUserId ids m c d rs) = written m' c d := by
  unfold after
  by_cases hany : (rs.any fun r => counts localUserId ids c r.recipientId) = true
  · rw [if_pos hany]
    refine ⟨get_written_message h.stored rfl, _, get_written_conversation h.conversation, fun user => ?_,
      fun m' hid ht => written_written hid.symm ht.symm⟩
    unfold noted
    split
    · rfl
    · rfl
  · rw [if_neg hany, settled_of_none h]
    · exact ⟨h.stored, c, h.conversation, fun user => rfl, fun m' _ _ => rfl⟩
    · intro r hr
      by_contra hc
      exact hany (List.any_eq_true.2 ⟨r, hr, by simpa using hc⟩)

theorem foldl_receive (h : Sent messageId localUserId ids d m c) (rs : List Receipt) :
    rs.foldl (receive messageId localUserId) d = after localUserId ids m c d rs := by
  induction rs using List.reverseRecOn with
  | nil => rfl
  | append_singleton rs r ih =>
    obtain ⟨hm, c', hc, hcounts, hwritten⟩ := get_after h rs
    rw [List.foldl_append, List.foldl_cons, List.foldl_nil, ih]
    unfold receive
    cases hr : counts localUserId ids c r.recipientId with
    | true =>
      have hany : ((rs ++ [r]).any fun r => counts localUserId ids c r.recipientId) = true :=
        List.any_eq_true.2 ⟨r, List.mem_append_right _ List.mem_cons_self, hr⟩
      rw [record_counts h.user hm h.outgoing h.sender hc h.recorded ((hcounts _).trans hr),
        received_settled h.recorded hr, Option.getD_some,
        hwritten (settled localUserId ids c m (rs ++ [r])) rfl rfl]
      unfold after
      rw [if_pos hany]
    | false =>
      rw [record_refused hm hc h.recorded ((hcounts _).trans hr), Option.getD_none, after_refused hr]

def rank : StorageMessageStatus → ℕ
  | .sent => 1
  | .delivered => 2
  | .read => 3
  | _ => 0

theorem rank_aggregate_mono {expected : Option (List Text)} {r r' s s' : LinkedSet Text} (hr : ∀ x ∈ r, x ∈ r')
    (hs : ∀ x ∈ s, x ∈ s') : rank (aggregate expected r s) ≤ rank (aggregate expected r' s') := by
  have hall : ∀ {ids : List Text} {a b : LinkedSet Text}, (∀ x ∈ a, x ∈ b) →
      (ids.all fun id => decide (id ∈ a)) = true → (ids.all fun id => decide (id ∈ b)) = true := by
    intro ids a b hab h
    refine List.all_eq_true.2 fun id hid => decide_eq_true (hab id ?_)
    exact of_decide_eq_true (List.all_eq_true.1 h id hid)
  unfold aggregate
  cases expected with
  | none => exact Nat.le_refl 1
  | some ids =>
    simp only
    by_cases hids : ids = []
    · rw [if_pos hids, if_pos hids]
    · rw [if_neg hids, if_neg hids]
      by_cases hread : (ids.all fun id => decide (id ∈ r)) = true
      · rw [if_pos hread, if_pos (hall hr hread)]
      · rw [if_neg hread]
        by_cases hdelivered : (ids.all fun id => decide (id ∈ s)) = true
        · rw [if_pos hdelivered, if_pos (hall hs hdelivered)]
          split
          · decide
          · exact Nat.le_refl 2
        · rw [if_neg hdelivered]
          split
          · decide
          · split
            · decide
            · exact Nat.le_refl 1

theorem settled_read_iff : (settled localUserId ids c m rs).status = .read ↔
    expectedOf localUserId ids ≠ [] ∧
      ∀ id ∈ expectedOf localUserId ids, (c.isGroup = true ∨ id = c.peerId) ∧ ⟨id, true⟩ ∈ rs := by
  have hcounts : ∀ id ∈ expectedOf localUserId ids,
      (counts localUserId ids c id = true ↔ c.isGroup = true ∨ id = c.peerId) := by
    intro id hid
    unfold counts
    rw [any_eq_iff.2 hid, Bool.true_and, Bool.or_eq_true, decide_eq_true_eq]
  have hall : ((expectedOf localUserId ids).all fun id => decide (id ∈ readers localUserId ids c rs)) = true ↔
      ∀ id ∈ expectedOf localUserId ids, (c.isGroup = true ∨ id = c.peerId) ∧ ⟨id, true⟩ ∈ rs := by
    rw [List.all_eq_true]
    refine forall₂_congr fun id hid => ?_
    rw [decide_eq_true_eq, mem_readers, hcounts id hid]
  show aggregate (some (expectedOf localUserId ids)) _ _ = .read ↔ _
  rw [← hall]
  unfold aggregate
  simp only
  by_cases hids : expectedOf localUserId ids = []
  · simp [hids]
  · rw [if_neg hids]
    by_cases hread : ((expectedOf localUserId ids).all fun id => decide (id ∈ readers localUserId ids c rs)) = true
    · simp [hids, hread]
    · rw [if_neg hread]
      refine iff_of_false (fun h => ?_) fun h => hread h.2
      split at h
      · cases h
      · cases h

/-- **Receipts add up to their set.** -/
theorem recordDeliveryReceipt_set (h : Sent messageId localUserId ids d m c) :
    (∀ rs rs' : List Receipt, (∀ r, r ∈ rs ↔ r ∈ rs') →
      rs.foldl (receive messageId localUserId) d = rs'.foldl (receive messageId localUserId) d) ∧
    ∀ rs : List Receipt, ∃ row : Message,
      (rs.foldl (receive messageId localUserId) d).messages.get messageId = some row ∧
      (∀ r, ∃ row' : Message, ((rs ++ [r]).foldl (receive messageId localUserId) d).messages.get messageId = some row' ∧
        rank row.status ≤ rank row'.status) ∧
      (∀ r : Receipt, (r.recipientId ∉ expectedOf localUserId ids ∨ c.isGroup = false ∧ r.recipientId ≠ c.peerId) →
        (rs ++ [r]).foldl (receive messageId localUserId) d = rs.foldl (receive messageId localUserId) d) ∧
      (row.status = .read ↔ expectedOf localUserId ids ≠ [] ∧
        ∀ id ∈ expectedOf localUserId ids, (c.isGroup = true ∨ id = c.peerId) ∧ ⟨id, true⟩ ∈ rs) := by
  constructor
  · intro rs rs' hset
    rw [foldl_receive h, foldl_receive h, after_congr hset]
  · intro rs
    simp only [foldl_receive h]
    refine ⟨_, (get_after h rs).1, fun r => ⟨_, (get_after h (rs ++ [r])).1, ?_⟩, fun r hr => after_refused ?_,
      settled_read_iff⟩
    · show rank (aggregate (some _) (readers localUserId ids c rs) (reached localUserId ids c rs)) ≤
        rank (aggregate (some _) (readers localUserId ids c (rs ++ [r])) (reached localUserId ids c (rs ++ [r])))
      refine rank_aggregate_mono (fun x hx => ?_) fun x hx => ?_
      · obtain ⟨hc, hr⟩ := mem_readers.1 hx
        exact mem_readers.2 ⟨hc, List.mem_append_left _ hr⟩
      · obtain ⟨hc, r, hr, he⟩ := mem_reached.1 hx
        exact mem_reached.2 ⟨hc, r, List.mem_append_left _ hr, he⟩
    · unfold counts
      rcases hr with hr | ⟨hgroup, hpeer⟩
      · rw [Bool.eq_false_iff.2 (mt any_eq_iff.1 hr), Bool.false_and]
      · rw [hgroup, decide_eq_false hpeer, Bool.or_self, Bool.and_false]

end Steps

def sampleChat : ConversationEntity := { id := ['p'], peerId := ['p'], peerName := ['P'], peerPhone := [] }

def sampleSent (ids : List Text) : Message where
  id := ['m']
  conversationId := ['p']
  senderId := ['s']
  content := ['h', 'i']
  contentType := .text
  timestamp := 1
  status := .sent
  isOutgoing := true
  receiptRecipients := some ids

def sentDevice (ids : List Text) : Device where
  conversations := Keyed.empty.insert sampleChat
  messages := Keyed.empty.insert (sampleSent ids)

theorem sent_sample (ids : List Text) : Sent ['m'] ['s'] ids (sentDevice ids) (sampleSent ids) sampleChat where
  user := by decide
  stored := rfl
  outgoing := rfl
  sender := rfl
  conversation := rfl
  recorded := rfl
  status := rfl
  deliveredTo := rfl
  readBy := rfl

theorem recordDeliveryReceipt_set_twice :
    [⟨['p'], false⟩, ⟨['p'], true⟩].foldl (receive ['m'] ['s']) (sentDevice [['p']]) =
      [⟨['p'], true⟩, ⟨['p'], false⟩, ⟨['p'], true⟩].foldl (receive ['m'] ['s']) (sentDevice [['p']]) :=
  (recordDeliveryReceipt_set (sent_sample [['p']])).1 _ _ (by simp)

/-- **Everyone recorded has read the message and it is not read**: in a direct chat the receipts of another user do not
count, and of a list without another user nobody is expected. -/
theorem recordDeliveryReceipt_unread :
    (([⟨['p'], true⟩, ⟨['q'], true⟩].foldl (receive ['m'] ['s']) (sentDevice [['p'], ['q']])).messages.get ['m']).map
      Message.status = some .sent ∧
    (([⟨['s'], true⟩].foldl (receive ['m'] ['s']) (sentDevice [['s']])).messages.get ['m']).map
      Message.status = some .sent := by
  constructor
  · decide +kernel
  · decide +kernel

end ChatControl
end SecureChat
