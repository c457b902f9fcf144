import SecureChat.BlobDownloads
/-!
# AttachmentDelivery — what becomes of an acknowledged attachment

`Books` is what decides it: the pending records, the received files, the rows, the attachments that were given up and
the received files that only memory holds.  An attachment is `Accounted` for if it is in one of them.  Every change of
the books keeps who is accounted for (`Keeps`), unless the process stops while memory holds a received file, a
redelivery finds neither a pending record nor its message id free, or a retry starts what it has read after the record
is gone; `accounted_run` is the exact rule, `stop_loses`, `redelivery_orphans` and `retry_orphans` are what happens
otherwise.
-/
namespace SecureChat
namespace BlobDownloads

open Runs

structure Books where
  pending : Table TransferId PendingFile
  files : Table Path TransferId
  messages : Table Text MessageEntity
  failed : List TransferId
  carried : List ReceivedFile

def Phone.books (s : Phone) : Books := ⟨s.pending, s.files, s.messages, s.failed, s.carried⟩

namespace Books

section Definitions

variable (b : Books)

def Recorded (t : TransferId) : Prop := ∃ pointer, b.pending.get t = some (.record pointer)

def Stored (t : TransferId) : Prop :=
  ∃ file, b.messages.get t.messageId = some ⟨t.senderId, some file⟩ ∧ b.files.get file = some t

/-- An attachment is pending, given up by a rule, stored, or held by the running process. -/
def Accounted (t : TransferId) : Prop :=
  b.Recorded t ∨ t ∈ b.failed ∨ b.Stored t ∨ ∃ r ∈ b.carried, r.transferId = t

/-- The message id of the attachment is free: no row has it, nothing that is held, and no other pending record. -/
def Free (t : TransferId) : Prop :=
  b.messages.get t.messageId = none ∧ (∀ r ∈ b.carried, r.transferId.messageId ≠ t.messageId) ∧
    ∀ u, b.pending.get u ≠ none → u.messageId = t.messageId → u = t

instance (t : TransferId) : Decidable (b.Free t) :=
  decidable_of_iff (b.messages.get t.messageId = none ∧ (∀ r ∈ b.carried, r.transferId.messageId ≠ t.messageId) ∧
      ∀ u ∈ b.pending.entries.map Prod.fst, u.messageId = t.messageId → u = t) (by
    unfold Free
    simp only [ne_eq, Table.get_eq_none, not_not])

instance : DecidablePred b.Recorded := fun t =>
  match h : b.pending.get t with
  | some (.record pointer) => .isTrue ⟨pointer, h⟩
  | some .truncated => .isFalse fun ⟨_, hp⟩ => by cases h.symm.trans hp
  | none => .isFalse fun ⟨_, hp⟩ => by cases h.symm.trans hp

structure Ok : Prop where
  free : ∀ t, b.pending.get t ≠ none → b.Free t
  carried : ∀ r ∈ b.carried, b.messages.get r.transferId.messageId = none ∧ b.files.get r.file = some r.transferId
  distinct : (b.carried.map fun r => r.transferId.messageId).Nodup

def Downloads (t : TransferId) : Downloading → Prop
  | .outputLength output | .deleteOutput output | .deletePending output => b.Recorded t ∧ b.files.get output = some t
  | .sealedExists | .deleteSealed => True
  | _ => b.Recorded t

def Handles : Handling → Prop
  | .writePending _ t _ => b.pending.get t = some .truncated
  | .remember _ t | .deliveredReceipt t | .transportAck t => b.Accounted t
  | _ => True

/-- A change of the books that keeps what is accounted for, and what the downloads of `P` and the writers of `Q` rely
on. -/
structure Keeps (b' : Books) (P Q : TransferId → Prop) : Prop where
  ok : b'.Ok
  accounted : ∀ u, b.Accounted u → b'.Accounted u
  downloads : ∀ u d, P u → b.Downloads u d → b'.Downloads u d
  writing : ∀ u, Q u → b.pending.get u = some .truncated → b'.pending.get u = some .truncated

end Definitions

section Changes

variable {b : Books} {t u : TransferId}

theorem Downloads.imp {b' : Books} {d : Downloading} (h : b.Downloads t d) (hr : b.Recorded t → b'.Recorded t)
    (hf : ∀ output, b.Recorded t → b.files.get output = some t → b'.files.get output = some t) :
    b'.Downloads t d := by
  cases d with
  | sealedExists => trivial
  | deleteSealed => trivial
  | outputLength output => exact ⟨hr h.1, hf output h.1 h.2⟩
  | deleteOutput output => exact ⟨hr h.1, hf output h.1 h.2⟩
  | deletePending output => exact ⟨hr h.1, hf output h.1 h.2⟩
  | delay left => exact hr h
  | download left => exact hr h
  | deleteMissing => exact hr h
  | sealedLength => exact hr h
  | createDirectory => exact hr h
  | reseal output => exact hr h
  | invalidExists => exact hr h
  | deleteInvalid => exact hr h
  | deleteMismatched => exact hr h

theorem Accounted.imp {b' : Books} (h : b.Accounted t) (hr : b.Recorded t → b'.Accounted t)
    (hf : t ∈ b.failed → t ∈ b'.failed) (hs : b.Stored t → b'.Stored t)
    (hc : ∀ r ∈ b.carried, r.transferId = t → b'.Accounted t) : b'.Accounted t := by
  rcases h with h | h | h | ⟨r, h, he⟩
  · exact hr h
  · exact .inr (.inl (hf h))
  · exact .inr (.inr (.inl (hs h)))
  · exact hc r h he

theorem Recorded.ne_none (h : b.Recorded t) : b.pending.get t ≠ none := by
  obtain ⟨pointer, h⟩ := h
  rw [h]
  nofun

theorem Recorded.isSome (h : b.Recorded t) : (b.pending.get t).isSome := by
  obtain ⟨pointer, h⟩ := h
  rw [h]
  rfl

theorem keeps_refl (h : b.Ok) : b.Keeps b (fun _ => True) fun _ => True :=
  ⟨h, fun _ h => h, fun _ _ _ h => h, fun _ _ h => h⟩

theorem keeps_put {file : PendingFile} (h : b.Ok) (hn : ¬ b.Recorded t) (hfree : b.Free t) :
    b.Keeps { b with pending := b.pending.put t file } (fun _ => True) (fun u => u ≠ t) := by
  have hrec : ∀ u, b.Recorded u → Recorded { b with pending := b.pending.put t file } u := by
    rintro u ⟨pointer, hu⟩
    have hne : u ≠ t := by
      rintro rfl
      exact hn ⟨pointer, hu⟩
    exact ⟨pointer, (Table.get_put_of_ne hne).trans hu⟩
  refine ⟨⟨fun u hu => ?_, h.carried, h.distinct⟩, fun u hu => ?_, fun u d _ hd => ?_, fun u hne hu => ?_⟩
  · have hold : ∀ v, (b.pending.put t file).get v ≠ none → v ≠ t → b.pending.get v ≠ none := fun v hv hvt => by
      rwa [Table.get_put_of_ne hvt] at hv
    by_cases hut : u = t
    · subst hut
      refine ⟨hfree.1, hfree.2.1, fun v hv hm => ?_⟩
      by_contra hvt
      exact hvt (hfree.2.2 v (hold v hv hvt) hm)
    · obtain ⟨hm, hc, hu'⟩ := h.free u (hold u hu hut)
      refine ⟨hm, hc, fun v hv hvm => ?_⟩
      by_cases hvt : v = t
      · subst hvt
        exact (hfree.2.2 u (hold u hu hut) hvm.symm).symm
      · exact hu' v (hold v hv hvt) hvm
  · exact hu.imp (fun h => .inl (hrec u h)) (fun h => h) (fun h => h) fun r hr he => .inr (.inr (.inr ⟨r, hr, he⟩))
  · exact hd.imp (hrec u) fun _ _ h => h
  · exact (Table.get_put_of_ne hne).trans hu

theorem keeps_remove {failed : List TransferId} {carried : List ReceivedFile} (h : b.Ok) (hr : b.Recorded t)
    (hf : ∀ u ∈ b.failed, u ∈ failed) (hc : ∀ r ∈ b.carried, r ∈ carried)
    (ht : t ∈ failed ∨ ∃ r ∈ carried, r.transferId = t)
    (hcarried : ∀ r ∈ carried, r ∈ b.carried ∨ r.transferId = t ∧ b.files.get r.file = some t)
    (hdistinct : (carried.map fun r => r.transferId.messageId).Nodup) :
    b.Keeps { b with pending := b.pending.remove t, failed := failed, carried := carried } (fun u => u ≠ t)
      fun _ => True := by
  have hold : ∀ u, (b.pending.remove t).get u ≠ none → u ≠ t ∧ b.pending.get u ≠ none := by
    intro u hu
    have hne : u ≠ t := by
      rintro rfl
      exact hu Table.get_remove_self
    rw [Table.get_remove_of_ne hne] at hu
    exact ⟨hne, hu⟩
  have hfree := h.free t hr.ne_none
  refine ⟨⟨fun u hu => ?_, fun r hmem => ?_, hdistinct⟩, fun u hu => ?_, fun u d hne hd => ?_, fun u _ hu => ?_⟩
  · obtain ⟨hne, hub⟩ := hold u hu
    obtain ⟨hm, hcu, huniq⟩ := h.free u hub
    refine ⟨hm, fun r hmem heq => ?_, fun v hv hvm => huniq v (hold v hv).2 hvm⟩
    rcases hcarried r hmem with hmem | ⟨rfl, -⟩
    · exact hcu r hmem heq
    · exact hne (hfree.2.2 u hub heq.symm)
  · rcases hcarried r hmem with hmem | ⟨rfl, hfile⟩
    · exact h.carried r hmem
    · exact ⟨hfree.1, hfile⟩
  · refine hu.imp (fun hru => ?_) (hf u) (fun h => h) fun r hmem he => .inr (.inr (.inr ⟨r, hc r hmem, he⟩))
    by_cases hut : u = t
    · subst hut
      rcases ht with ht | ht
      · exact .inr (.inl ht)
      · exact .inr (.inr (.inr ht))
    · obtain ⟨pointer, hru⟩ := hru
      exact .inl ⟨pointer, (Table.get_remove_of_ne hut).trans hru⟩
  · refine hd.imp (fun hru => ?_) fun _ _ h => h
    obtain ⟨pointer, hru⟩ := hru
    exact ⟨pointer, (Table.get_remove_of_ne hne).trans hru⟩
  · have hne : u ≠ t := by
      rintro rfl
      obtain ⟨pointer, hr⟩ := hr
      rw [hr] at hu
      cases hu
    exact (Table.get_remove_of_ne hne).trans hu

/-- A change of the received files that leaves those of other attachments, and of this one while it is not pending. -/
theorem keeps_files {files : Table Path TransferId} {P : TransferId → Prop} (h : b.Ok) (hr : b.Recorded t)
    (hf : ∀ file u, u ≠ t → b.files.get file = some u → files.get file = some u)
    (hP : ∀ file, P t → b.files.get file = some t → files.get file = some t) :
    b.Keeps { b with files := files } P fun _ => True := by
  have hfree := h.free t hr.ne_none
  refine ⟨⟨h.free, fun r hmem => ⟨(h.carried r hmem).1, ?_⟩, h.distinct⟩, fun u hu => ?_, fun u d hp hd => ?_,
    fun _ _ h => h⟩
  · refine hf _ _ (fun he => ?_) (h.carried r hmem).2
    exact hfree.2.1 r hmem (by rw [he])
  · refine hu.imp .inl (fun h => h) ?_ fun r hmem he => .inr (.inr (.inr ⟨r, hmem, he⟩))
    rintro ⟨file, hrow, hfile⟩
    refine ⟨file, hrow, hf file u (fun he => ?_) hfile⟩
    subst he
    rw [hfree.1] at hrow
    cases hrow
  · refine hd.imp (fun h => h) fun output _ hout => ?_
    by_cases hut : u = t
    · subst hut
      exact hP output hp hout
    · exact hf output u hut hout

theorem keeps_release {r : ReceivedFile} {rest : List ReceivedFile} (h : b.Ok) (hc : b.carried = r :: rest) {b' : Books}
    (hp : b'.pending = b.pending) (hcarried : b'.carried = rest) (hfailed : ∀ u ∈ b.failed, u ∈ b'.failed)
    (hfiles : ∀ file u, u ≠ r.transferId → b.files.get file = some u → b'.files.get file = some u)
    (hrows : ∀ m, m ≠ r.transferId.messageId → b'.messages.get m = b.messages.get m)
    (hr : b'.Accounted r.transferId) : b.Keeps b' (fun _ => True) fun _ => True := by
  have hmem : r ∈ b.carried := by
    rw [hc]
    exact List.mem_cons_self
  have hrest : ∀ x ∈ rest, x ∈ b.carried ∧ x.transferId.messageId ≠ r.transferId.messageId := by
    intro x hx
    have hnodup := h.distinct
    rw [hc, List.map_cons, List.nodup_cons] at hnodup
    refine ⟨hc ▸ List.mem_cons_of_mem _ hx, fun he => hnodup.1 ?_⟩
    rw [← he]
    exact List.mem_map_of_mem hx
  have hne : ∀ u, b.pending.get u ≠ none → u.messageId ≠ r.transferId.messageId := fun u hu he =>
    (h.free u hu).2.1 r hmem he.symm
  have hrec : ∀ u, b.Recorded u → b'.Recorded u := by
    rintro u ⟨pointer, hu⟩
    exact ⟨pointer, hp ▸ hu⟩
  refine ⟨⟨fun u hu => ?_, fun x hx => ?_, ?_⟩, fun u hu => ?_, fun u d _ hd => ?_, fun u _ hu => hp ▸ hu⟩
  · rw [hp] at hu
    obtain ⟨hm, hcu, huniq⟩ := h.free u hu
    refine ⟨(hrows _ (hne u hu)).trans hm, fun x hx => ?_, fun v hv => huniq v (hp ▸ hv)⟩
    rw [hcarried] at hx
    exact hcu x (hrest x hx).1
  · rw [hcarried] at hx
    obtain ⟨hx, hxm⟩ := hrest x hx
    exact ⟨(hrows _ hxm).trans (h.carried x hx).1, hfiles _ _ (fun he => hxm (by rw [he])) (h.carried x hx).2⟩
  · have hnodup := h.distinct
    rw [hc, List.map_cons, List.nodup_cons] at hnodup
    rw [hcarried]
    exact hnodup.2
  · refine hu.imp (fun hu => .inl (hrec u hu)) (hfailed u) ?_ fun x hx he => ?_
    · rintro ⟨file, hrow, hfile⟩
      have hum : u.messageId ≠ r.transferId.messageId := by
        intro he
        rw [he, (h.carried r hmem).1] at hrow
        cases hrow
      exact ⟨file, (hrows _ hum).trans hrow, hfiles file u (fun he => hum (by rw [he])) hfile⟩
    · rw [hc] at hx
      rcases List.mem_cons.1 hx with rfl | hx
      · exact he ▸ hr
      · exact .inr (.inr (.inr ⟨x, hcarried ▸ hx, he⟩))
  · refine hd.imp (hrec u) fun output hru hout => hfiles output u (fun he => ?_) hout
    exact hne u hru.ne_none (by rw [he])

end Changes

end Books

namespace Phone

/-- The invariant: the books are in order, and who is acknowledged, or has a party of the process working on it, is in
them. -/
structure Sound (s : Phone) : Prop where
  ok : s.books.Ok
  acked : ∀ t ∈ s.acked, s.books.Accounted t
  processed : ∀ token t, s.processed.get token = some t → s.books.Accounted t
  downloads : ∀ t d, s.downloads.get t = some d → s.books.Accounted t ∧ s.books.Downloads t d.2
  handler : ∀ h, s.handler = some h → s.books.Handles h
  orphans : s.orphans = []

section Steps

variable {s s' : Phone} {t : TransferId} {pointer : BlobPointer} {delays : List ℕ} {answer : Answer}

theorem Sound.of_keeps {P Q : TransferId → Prop} (h : s.Sound) (hk : s.books.Keeps s'.books P Q)
    (hacked : ∀ t ∈ s'.acked, t ∈ s.acked ∨ s'.books.Accounted t)
    (hprocessed : ∀ token t, s'.processed.get token = some t →
      s.processed.get token = some t ∨ s'.books.Accounted t)
    (hdownloads : ∀ t d, s'.downloads.get t = some d →
      s.downloads.get t = some d ∧ P t ∨ s'.books.Accounted t ∧ s'.books.Downloads t d.2)
    (hhandler : ∀ x, s'.handler = some x →
      s.handler = some x ∧ (∀ token t p, x = .writePending token t p → Q t) ∨ s'.books.Handles x)
    (horphans : s'.orphans = s.orphans) : s'.Sound where
  ok := hk.ok
  acked t ht := (hacked t ht).elim (fun ht => hk.accounted t (h.acked t ht)) id
  processed token t ht := (hprocessed token t ht).elim (fun ht => hk.accounted t (h.processed token t ht)) id
  downloads t d hd := by
    rcases hdownloads t d hd with ⟨hd, hp⟩ | hd
    · exact ⟨hk.accounted t (h.downloads t d hd).1, hk.downloads t d.2 hp (h.downloads t d hd).2⟩
    · exact hd
  handler x hx := by
    rcases hhandler x hx with ⟨hx, hq⟩ | hx
    · have hold := h.handler x hx
      cases x with
      | writePending token t p => exact hk.writing t (hq token t p rfl) hold
      | remember token t => exact hk.accounted t hold
      | deliveredReceipt t => exact hk.accounted t hold
      | transportAck t => exact hk.accounted t hold
      | processedDelivery token t p => trivial
      | createStaging token t p => trivial
      | pendingExists token t p => trivial
    · exact hx
  orphans := horphans.trans h.orphans

theorem Sound.setHandler (h : s.Sound) {x : Option Handling} (hx : ∀ y, x = some y → s.books.Handles y) :
    (s.setHandler x).Sound :=
  ⟨h.ok, h.acked, h.processed, h.downloads, hx, h.orphans⟩

theorem Sound.setDownload (h : s.Sound) {d : Downloading} (ha : s.books.Accounted t) (hd : s.books.Downloads t d) :
    (s.setDownload t pointer d).Sound := by
  refine ⟨h.ok, h.acked, h.processed, fun u x hx => ?_, h.handler, h.orphans⟩
  by_cases hu : u = t
  · subst hu
    cases Table.get_put_self.symm.trans hx
    exact ⟨ha, hd⟩
  · exact h.downloads u x ((Table.get_put_of_ne hu).symm.trans hx)

theorem Sound.setPersister (h : s.Sound) {p : Option Persisting}
    (hp : p.bind Persisting.received = s.persister.bind Persisting.received) : (s.setPersister p).Sound := by
  have hbooks : (s.setPersister p).books = s.books := by
    unfold books carried
    rw [show (s.setPersister p).persister = p from rfl, hp]
    rfl
  refine h.of_keeps (P := fun _ => True) (Q := fun _ => True) ?_ (fun _ => .inl) (fun _ _ => .inl)
    (fun _ _ hd => .inl ⟨hd, trivial⟩) (fun _ hx => .inl ⟨hx, fun _ _ _ _ => trivial⟩) rfl
  rw [hbooks]
  exact Books.keeps_refl h.ok

theorem downloads_next {b : Books} (h : b.Recorded t) (lastError : Bool) :
    ∀ left : List ℕ, b.Downloads t (.next lastError left)
  | [] => by
    cases lastError with
    | true => trivial
    | false => exact h
  | first :: left => by
    show b.Downloads t (if 0 < first then .delay left else .download left)
    split
    · exact h
    · exact h

theorem Sound.downloadPending (h : s.Sound) (hr : s.downloads.get t = none → s.books.Recorded t) :
    (s._downloadPending delays t pointer).Sound := by
  unfold _downloadPending
  split
  · exact h
  · rename_i hn
    have hr := hr (Option.not_isSome_iff_eq_none.1 hn)
    exact h.setDownload (.inl hr) (downloads_next hr false delays)

theorem Sound.setRetrying (h : s.Sound) {r : Option (TransferId × BlobPointer)} :
    ({ s with retrying := r } : Phone).Sound :=
  ⟨h.ok, h.acked, h.processed, h.downloads, h.handler, h.orphans⟩

theorem setHandler_downloadPending (x : Option Handling) :
    (s._downloadPending delays t pointer).setHandler x = (s.setHandler x)._downloadPending delays t pointer := by
  unfold _downloadPending
  rw [show (s.setHandler x).downloads = s.downloads from rfl]
  split
  · rfl
  · rfl

/-- The condition on a step: a redelivery finds a record that it can read, or the message id free; a retry starts a
transfer while its record is still there, or a download of it is under way; a received file gets a name of its own; and
the process stops only while it holds no received file. -/
def Undisturbed (s : Phone) : Event → Prop
  | .handle _ =>
    match s.handler with
    | some (.pendingExists _ t _) =>
      match s.pending.get t with
      | none => s.books.Free t
      | some .truncated => False
      | some (.record _) => True
    | _ => True
  | .startRetry =>
    match s.retrying with
    | some (t, _) => s.downloads.get t = none → s.books.Recorded t
    | none => True
  | .download t answer =>
    match s.downloads.get t with
    | some (_, .reseal output) => answer.yes = true → s.files.get output = none
    | _ => True
  | .stop => s.carried = []
  | _ => True

instance (s : Phone) : DecidablePred s.Undisturbed := fun e => by
  unfold Undisturbed
  split
  · split
    · split
      · exact inferInstanceAs (Decidable (s.books.Free _))
      · exact inferInstanceAs (Decidable False)
      · exact inferInstanceAs (Decidable True)
    · exact inferInstanceAs (Decidable True)
  · split
    · exact inferInstanceAs (Decidable (_ → _))
    · exact inferInstanceAs (Decidable True)
  · split
    · exact inferInstanceAs (Decidable (_ → _))
    · exact inferInstanceAs (Decidable True)
  · exact inferInstanceAs (Decidable (_ = _))
  · exact inferInstanceAs (Decidable True)

theorem Sound.handle (h : s.Sound) {x : Handling} (hx : s.handler = some x) (hu : s.Undisturbed (.handle answer)) :
    (s.handle delays answer x).Sound := by
  have hold := h.handler x hx
  have hnone : (s.setHandler none).Sound := h.setHandler nofun
  cases x with
  | processedDelivery token t pointer =>
    unfold Phone.handle
    dsimp only
    split
    · rename_i previous hp
      split
      · exact hnone
      · refine h.setHandler fun y hy => ?_
        cases hy
        exact h.processed token previous hp
    · exact h.setHandler fun y hy => by cases hy; trivial
  | createStaging token t pointer =>
    unfold Phone.handle
    dsimp only
    split
    · rename_i hd
      obtain ⟨d, hd⟩ := Option.isSome_iff_exists.1 hd
      refine h.setHandler fun y hy => ?_
      cases hy
      exact (h.downloads t d hd).1
    · exact h.setHandler fun y hy => by cases hy; trivial
  | pendingExists token t pointer =>
    unfold Undisturbed at hu
    rw [hx] at hu
    unfold Phone.handle
    dsimp only at hu ⊢
    split
    · rename_i file hfile
      rw [hfile] at hu
      cases file with
      | truncated => exact hu.elim
      | record old =>
        have hr : s.books.Recorded t := ⟨old, hfile⟩
        rw [setHandler_downloadPending]
        refine (h.setHandler fun y hy => ?_).downloadPending fun _ => hr
        cases hy
        exact .inl hr
    · rename_i hfile
      rw [hfile] at hu
      have hn : ¬ s.books.Recorded t := fun hr => hr.ne_none hfile
      refine h.of_keeps (Books.keeps_put h.ok hn hu) (fun _ => .inl) (fun _ _ => .inl)
        (fun _ _ hd => .inl ⟨hd, trivial⟩) (fun y hy => .inr ?_) rfl
      cases hy
      exact Table.get_put_self
  | writePending token t pointer =>
    unfold Phone.handle
    dsimp only
    rw [setHandler_downloadPending]
    have hn : ¬ s.books.Recorded t := by
      rintro ⟨p, hp⟩
      rw [show s.books.pending.get t = some .truncated from hold] at hp
      cases hp
    have hfree : s.books.Free t := h.ok.free t (by rw [show s.books.pending.get t = some .truncated from hold]; nofun)
    have hr : ((s.writePending t pointer).setHandler (some (.remember token t))).books.Recorded t :=
      ⟨pointer, Table.get_put_self⟩
    refine Sound.downloadPending ?_ fun _ => hr
    refine h.of_keeps (Books.keeps_put h.ok hn hfree) (fun _ => .inl) (fun _ _ => .inl)
      (fun _ _ hd => .inl ⟨hd, trivial⟩) (fun y hy => .inr ?_) rfl
    cases hy
    exact .inl hr
  | remember token t =>
    refine h.of_keeps (Books.keeps_refl h.ok) (fun _ => .inl) (fun token' u hu => ?_)
      (fun _ _ hd => .inl ⟨hd, trivial⟩) (fun y hy => .inr ?_) rfl
    · by_cases he : token' = token
      · subst he
        cases Table.get_put_self.symm.trans hu
        exact .inr hold
      · exact .inl ((Table.get_put_of_ne he).symm.trans hu)
    · cases hy
      exact hold
  | deliveredReceipt t =>
    unfold Phone.handle
    dsimp only
    split
    · refine h.of_keeps (Books.keeps_refl h.ok) (fun u hu => ?_) (fun _ _ => .inl)
        (fun _ _ hd => .inl ⟨hd, trivial⟩) (fun y hy => .inr ?_) rfl
      · rcases List.mem_cons.1 hu with rfl | hu
        · exact .inr hold
        · exact .inl hu
      · cases hy
        exact hold
    · exact hnone
  | transportAck t => exact hnone

theorem giveUp_recorded (hr : s.books.Recorded t) :
    s.giveUp t = { s with pending := s.pending.remove t, failed := t :: s.failed } :=
  if_pos hr.isSome

theorem receive_recorded {r : ReceivedFile} (hr : s.books.Recorded r.transferId) :
    s.receive r = { s with pending := s.pending.remove r.transferId, incoming := s.incoming ++ [r] } :=
  if_pos hr.isSome

theorem Sound.giveUp (h : s.Sound) (hr : s.books.Recorded t) :
    ((s.giveUp t).setDownload t pointer .sealedExists).Sound := by
  rw [giveUp_recorded hr]
  have hk : s.books.Keeps { s.books with pending := s.pending.remove t, failed := t :: s.failed } (fun u => u ≠ t)
      fun _ => True :=
    Books.keeps_remove h.ok hr (fun u hu => List.mem_cons_of_mem t hu) (fun _ h => h) (.inl List.mem_cons_self)
      (fun _ h => .inl h) h.ok.distinct
  refine h.of_keeps hk (fun _ => .inl) (fun _ _ => .inl) (fun u d hd => ?_)
    (fun _ hx => .inl ⟨hx, fun _ _ _ _ => trivial⟩) rfl
  by_cases hu : u = t
  · subst hu
    cases Table.get_put_self.symm.trans hd
    exact .inr ⟨.inr (.inl List.mem_cons_self), trivial⟩
  · exact .inl ⟨(Table.get_put_of_ne hu).symm.trans hd, hu⟩

theorem Sound.endDownload (h : s.Sound) : ({ s with downloads := s.downloads.remove t } : Phone).Sound := by
  refine ⟨h.ok, h.acked, h.processed, fun u d hd => ?_, h.handler, h.orphans⟩
  exact h.downloads u d (Table.get_filter_eq_some.1 hd).1

theorem Sound.complete (h : s.Sound) {output : Path} (hr : s.books.Recorded t)
    (hf : s.books.files.get output = some t) :
    ((s.receive ⟨t, output⟩).setDownload t pointer .sealedExists).Sound := by
  have hfree := h.ok.free t hr.ne_none
  have hmem : (⟨t, output⟩ : ReceivedFile) ∈ s.carried ++ [⟨t, output⟩] :=
    List.mem_append_right _ (List.mem_singleton.2 rfl)
  have hk : s.books.Keeps { s.books with pending := s.pending.remove t, carried := s.carried ++ [⟨t, output⟩] }
      (fun u => u ≠ t) fun _ => True := by
    refine Books.keeps_remove h.ok hr (fun _ h => h) (fun _ h => List.mem_append_left _ h) (.inr ⟨_, hmem, rfl⟩)
      (fun r hmem => ?_) ?_
    · rcases List.mem_append.1 hmem with hmem | hmem
      · exact .inl hmem
      · cases List.mem_singleton.1 hmem
        exact .inr ⟨rfl, hf⟩
    · rw [List.map_append, List.nodup_append]
      refine ⟨h.ok.distinct, List.nodup_singleton _, fun m hm m' hm' he => ?_⟩
      obtain ⟨r, hr, rfl⟩ := List.mem_map.1 hm
      cases List.mem_singleton.1 hm'
      exact hfree.2.1 r hr he
  have hbooks : ((s.receive ⟨t, output⟩).setDownload t pointer .sealedExists).books =
      { s.books with pending := s.pending.remove t, carried := s.carried ++ [⟨t, output⟩] } := by
    rw [receive_recorded hr]
    unfold books carried
    rw [List.append_assoc]
    rfl
  rw [receive_recorded hr] at hbooks ⊢
  refine h.of_keeps (hbooks ▸ hk) (fun _ => .inl) (fun _ _ => .inl) (fun u d hd => ?_)
    (fun _ hx => .inl ⟨hx, fun _ _ _ _ => trivial⟩) rfl
  by_cases hu : u = t
  · subst hu
    cases Table.get_put_self.symm.trans hd
    rw [hbooks]
    exact .inr ⟨.inr (.inr (.inr ⟨_, hmem, rfl⟩)), trivial⟩
  · exact .inl ⟨(Table.get_put_of_ne hu).symm.trans hd, hu⟩

theorem Sound.setFiles (h : s.Sound) {files : Table Path TransferId} {d : Downloading} (hr : s.books.Recorded t)
    (hf : ∀ file u, u ≠ t → s.files.get file = some u → files.get file = some u)
    (hd : (s.setFiles files).books.Downloads t d) : ((s.setFiles files).setDownload t pointer d).Sound := by
  have hk : s.books.Keeps { s.books with files := files } (fun u => u ≠ t) fun _ => True :=
    Books.keeps_files h.ok hr hf fun _ hne => absurd rfl hne
  refine h.of_keeps hk (fun _ => .inl) (fun _ _ => .inl) (fun u x hx => ?_)
    (fun _ hx => .inl ⟨hx, fun _ _ _ _ => trivial⟩) rfl
  by_cases hu : u = t
  · subst hu
    cases Table.get_put_self.symm.trans hx
    exact .inr ⟨.inl hr, hd⟩
  · exact .inl ⟨(Table.get_put_of_ne hu).symm.trans hx, hu⟩

theorem Sound.download (h : s.Sound) {d : Downloading} (hd : s.downloads.get t = some (pointer, d))
    (hu : s.Undisturbed (.download t answer)) : (s.download t pointer answer d).Sound := by
  obtain ⟨ha, hold⟩ := h.downloads t _ hd
  have hend : (s.setDownload t pointer .sealedExists).Sound := h.setDownload ha trivial
  cases d with
  | delay left => exact h.setDownload ha hold
  | download left =>
    unfold Phone.download
    dsimp only
    split
    · exact h.setDownload ha hold
    · split
      · exact h.setDownload ha hold
      · exact h.setDownload ha (downloads_next hold true left)
  | deleteMissing => exact h.giveUp hold
  | sealedLength =>
    unfold Phone.download
    dsimp only
    split
    · exact h.setDownload ha hold
    · exact hend
  | createDirectory => exact h.setDownload ha hold
  | reseal output =>
    unfold Undisturbed at hu
    dsimp only at hu
    rw [hd] at hu
    unfold Phone.download
    dsimp only at hu ⊢
    split
    · rename_i hyes
      refine h.setFiles hold (fun file u _ hfile => ?_) ⟨hold, Table.get_put_self⟩
      have hne : file ≠ output := by
        rintro rfl
        rw [hu hyes] at hfile
        cases hfile
      exact (Table.get_put_of_ne hne).trans hfile
    · exact h.setDownload ha hold
  | invalidExists =>
    unfold Phone.download
    dsimp only
    split
    · exact h.setDownload ha hold
    · exact hend
  | deleteInvalid => exact h.giveUp hold
  | outputLength output =>
    unfold Phone.download
    dsimp only
    split
    · exact h.setDownload ha hold
    · exact h.setDownload ha hold
  | deleteOutput output =>
    refine h.setFiles hold.1 (fun file u hne hfile => ?_) hold.1
    have hfo : file ≠ output := by
      rintro rfl
      exact hne (Option.some.inj (hfile.symm.trans hold.2))
    exact (Table.get_remove_of_ne hfo).trans hfile
  | deleteMismatched => exact h.giveUp hold
  | deletePending output => exact h.complete hold.1 hold.2
  | sealedExists =>
    unfold Phone.download
    dsimp only
    split
    · exact h.setDownload ha trivial
    · exact h.endDownload
  | deleteSealed => exact h.endDownload

theorem Sound.release (h : s.Sound) {r : ReceivedFile} (hc : s.carried = r :: s.incoming)
    (hp : s'.pending = s.pending) (hcarried : s'.carried = s.incoming) (hfailed : ∀ u ∈ s.failed, u ∈ s'.failed)
    (hfiles : ∀ file u, u ≠ r.transferId → s.files.get file = some u → s'.files.get file = some u)
    (hrows : ∀ m, m ≠ r.transferId.messageId → s'.messages.get m = s.messages.get m)
    (hr : s'.books.Accounted r.transferId) (hacked : s'.acked = s.acked) (hprocessed : s'.processed = s.processed)
    (hdownloads : s'.downloads = s.downloads) (hhandler : s'.handler = s.handler)
    (horphans : s'.orphans = s.orphans) : s'.Sound :=
  h.of_keeps (Books.keeps_release h.ok hc hp hcarried hfailed hfiles hrows hr) (fun _ ht => .inl (hacked ▸ ht))
    (fun _ _ ht => .inl (hprocessed ▸ ht)) (fun _ _ hd => .inl ⟨hdownloads ▸ hd, trivial⟩)
    (fun _ hx => .inl ⟨hhandler ▸ hx, fun _ _ _ _ => trivial⟩) horphans

theorem Sound.persist (h : s.Sound) {p : Persisting} (hp : s.persister = some p) : (s.persist answer p).Sound := by
  have hsame : ∀ {q : Option Persisting}, q.bind Persisting.received = p.received → (s.setPersister q).Sound :=
    fun hq => h.setPersister (by rw [hp, hq]; rfl)
  have hheld : ∀ {r : ReceivedFile}, p.received = some r → s.carried = r :: s.incoming ∧
      s.messages.get r.transferId.messageId = none ∧ s.files.get r.file = some r.transferId := by
    intro r hr
    have hc : s.carried = r :: s.incoming := by
      unfold carried
      rw [hp, Option.bind_some, hr]
      rfl
    exact ⟨hc, h.ok.carried r (by rw [show s.books.carried = s.carried from rfl, hc]; exact List.mem_cons_self)⟩
  cases p with
  | isBlocked r =>
    unfold Phone.persist
    dsimp only
    split
    · exact hsame rfl
    · exact hsame rfl
  | deleteFile r =>
    obtain ⟨hc, -, hfile⟩ := hheld rfl
    refine h.release (r := r) hc rfl rfl (fun u hu => List.mem_cons_of_mem _ hu) (fun file u hne hf => ?_)
      (fun _ _ => rfl) (.inr (.inl List.mem_cons_self)) rfl rfl rfl rfl rfl
    have hfr : file ≠ r.file := by
      rintro rfl
      exact hne (Option.some.inj (hf.symm.trans hfile))
    exact (Table.get_remove_of_ne hfr).trans hf
  | getMessage r =>
    obtain ⟨-, hrow, -⟩ := hheld rfl
    unfold Phone.persist
    dsimp only
    rw [hrow]
    exact hsame rfl
  | getConversation r =>
    unfold Phone.persist
    dsimp only
    split
    · exact hsame rfl
    · exact hsame rfl
  | insertConversation r => exact hsame rfl
  | deferPreview r => exact hsame rfl
  | insert r =>
    obtain ⟨hc, -, hfile⟩ := hheld rfl
    exact h.release (r := r) hc rfl rfl (fun _ hu => hu) (fun _ _ _ hf => hf) (fun m hm => Table.get_put_of_ne hm)
      (.inr (.inr (.inl ⟨r.file, Table.get_put_self, hfile⟩))) rfl rfl rfl rfl rfl
  | publish => exact hsame rfl

theorem books_stop : s.stop.books = { s.books with carried := [] } := rfl

theorem Sound.step (h : s.Sound) {e : Event} (hu : s.Undisturbed e) (hs : s.step delays e = some s') : s'.Sound := by
  cases e with
  | deliver token t pointer =>
    simp only [Phone.step] at hs
    split at hs
    · cases hs
      exact h.setHandler fun y hy => by cases hy; trivial
    · cases hs
  | handle answer =>
    obtain ⟨x, hx, rfl⟩ := Option.map_eq_some_iff.1 hs
    exact h.handle hx hu
  | retry t =>
    simp only [Phone.step] at hs
    split at hs
    · cases hs
      exact h.setRetrying
    · cases hs
  | startRetry =>
    obtain ⟨⟨t, pointer⟩, hr, rfl⟩ := Option.map_eq_some_iff.1 hs
    unfold Undisturbed at hu
    dsimp only at hu
    rw [hr] at hu
    exact h.setRetrying.downloadPending hu
  | download t answer =>
    obtain ⟨d, hd, rfl⟩ := Option.map_eq_some_iff.1 hs
    exact h.download hd hu
  | persist answer =>
    simp only [Phone.step] at hs
    split at hs
    · rename_i p hp
      cases hs
      exact h.persist hp
    · rename_i r rest hp hi
      cases hs
      have hbooks : ({ s with incoming := rest, persister := some (.isBlocked r) } : Phone).books = s.books := by
        unfold books carried
        rw [hp, hi]
        rfl
      refine h.of_keeps (P := fun _ => True) (Q := fun _ => True) ?_ (fun _ => .inl) (fun _ _ => .inl)
        (fun _ _ hd => .inl ⟨hd, trivial⟩) (fun _ hx => .inl ⟨hx, fun _ _ _ _ => trivial⟩) rfl
      rw [hbooks]
      exact Books.keeps_refl h.ok
    · cases hs
  | stop =>
    cases hs
    have hbooks : s.stop.books = s.books := by
      rw [books_stop, show ([] : List ReceivedFile) = s.books.carried from (show s.carried = [] from hu).symm]
    refine ⟨?_, ?_, ?_, fun t d hd => ?_, nofun, h.orphans⟩
    · rw [hbooks]
      exact h.ok
    · rw [hbooks]
      exact h.acked
    · rw [hbooks]
      exact h.processed
    · cases hd

end Steps

/-- **Neither lost nor duplicated**: who is acknowledged is accounted for, and no redelivery has left a file behind. -/
def Delivered (s : Phone) : Prop := (∀ t ∈ s.acked, s.books.Accounted t) ∧ s.orphans = []

end Phone

/-- **An acknowledged attachment is neither lost nor duplicated**, in every run whose steps are undisturbed. -/
theorem accounted_run {delays : List ℕ} {files : Table Path TransferId} {messages : Table Text MessageEntity}
    {s : Phone} {es : List Event}
    (hm : Meets (Phone.step · delays) Phone.Undisturbed { files := files, messages := messages } es)
    (hr : run (Phone.step · delays) { files := files, messages := messages } es = some s) : s.Delivered := by
  have hinit : Phone.Sound { files := files, messages := messages } :=
    ⟨⟨fun _ h => absurd rfl h, nofun, List.nodup_nil⟩, nofun, nofun, nofun, nofun, rfl⟩
  have hs : s.Sound := hm.invariant Phone.Sound (fun _ _ _ h hu hs => h.step hu hs) hinit hr
  exact ⟨hs.acked, hs.orphans⟩

def photoId : TransferId := ⟨"ann".toList, "m1".toList⟩

def photo : BlobPointer := ⟨"blob".toList, 0, "photo.jpg".toList, 0⟩

def photoAcked : List Event := .deliver "token".toList photoId photo :: List.replicate 6 (.handle {})

def photoReceived (millis : ℕ) : List Event :=
  [.download photoId {}, .download photoId {}, .download photoId { number := millis }, .download photoId {},
    .download photoId {}, .download photoId {}]

def photoStored : List Event :=
  [.download photoId { yes := false }, .persist {}, .persist { yes := false }, .persist {}, .persist {}, .persist {},
    .persist {}, .persist {}]

/-- The process stops after everything is stored, and the same delivery comes again. -/
def photoTwice : List Event :=
  .flatten [photoAcked, photoReceived 1, photoStored, [.stop, .deliver "token".toList photoId photo],
    List.replicate 2 (.handle {})]

theorem accounted_photoTwice : ∃ s, run (Phone.step · [0]) {} photoTwice = some s ∧ s.acked = [photoId, photoId] ∧
    s.books.Stored photoId ∧ s.Delivered := by
  obtain ⟨s, hs, hacked, hrow, hfile⟩ : ∃ s, run (Phone.step · [0]) {} photoTwice = some s ∧
      s.acked = [photoId, photoId] ∧
      s.messages.get photoId.messageId = some ⟨photoId.senderId, some ⟨1, "photo.jpg".toList⟩⟩ ∧
      s.files.get ⟨1, "photo.jpg".toList⟩ = some photoId :=
    exists_run _ _ _ (by decide +kernel)
  exact ⟨s, hs, hacked, ⟨_, hrow, hfile⟩, accounted_run (by decide +kernel) hs⟩

/-- **A stop loses an acknowledged attachment** that is received and not stored yet. -/
theorem stop_loses : ∃ s, run (Phone.step · [0]) {} (photoAcked ++ photoReceived 1 ++ [.stop]) = some s ∧
    s.acked = [photoId] ∧ s.pending.get photoId = none ∧ s.messages.get photoId.messageId = none ∧ ¬ s.Delivered := by
  obtain ⟨s, hs, hacked, hpending, hrow, hfailed, hcarried⟩ :
      ∃ s, run (Phone.step · [0]) {} (photoAcked ++ photoReceived 1 ++ [.stop]) = some s ∧ s.acked = [photoId] ∧
      s.pending.get photoId = none ∧ s.messages.get photoId.messageId = none ∧ s.failed = [] ∧ s.carried = [] :=
    exists_run _ _ _ (by decide +kernel)
  refine ⟨s, hs, hacked, hpending, hrow, fun h => ?_⟩
  rcases h.1 photoId (hacked ▸ List.mem_singleton.2 rfl) with hr | hf | ⟨file, hstored, -⟩ | ⟨r, hr, -⟩
  · exact hr.ne_none hpending
  · rw [show s.books.failed = [] from hfailed] at hf
    cases hf
  · cases hrow.symm.trans hstored
  · rw [show s.books.carried = [] from hcarried] at hr
    cases hr

/-- **A redelivery leaves a file behind**: the message is stored, and the attachment is downloaded once more. -/
theorem redelivery_orphans : ∃ s, run (Phone.step · [0]) {} (.flatten [photoAcked, photoReceived 1, photoStored,
      .handle {} :: .deliver "again".toList photoId photo :: List.replicate 5 (.handle {}), photoReceived 2,
      [.persist {}, .persist { yes := false }, .persist {}]]) = some s ∧
    s.files.get ⟨2, "photo.jpg".toList⟩ = some photoId ∧ s.orphans = [⟨2, "photo.jpg".toList⟩] ∧
    s.messages.get photoId.messageId = some ⟨photoId.senderId, some ⟨1, "photo.jpg".toList⟩⟩ :=
  exists_run _ _ _ (by decide +kernel)

/-- **A retry leaves a file behind**: it has read the record before the download that deletes it ends. -/
theorem retry_orphans : ∃ s, run (Phone.step · [0]) {} (photoAcked ++ [.retry photoId] ++ photoReceived 1 ++
      photoStored ++ [.startRetry] ++ photoReceived 2) = some s ∧
    s.files.get ⟨2, "photo.jpg".toList⟩ = some photoId ∧ s.orphans = [⟨2, "photo.jpg".toList⟩] ∧
    s.messages.get photoId.messageId = some ⟨photoId.senderId, some ⟨1, "photo.jpg".toList⟩⟩ :=
  exists_run _ _ _ (by decide +kernel)

end BlobDownloads
end SecureChat
