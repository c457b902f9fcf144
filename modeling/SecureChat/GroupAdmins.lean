import SecureChat.GroupAuthority
import SecureChat.GroupConvergence
/-!
# GroupAdmins — whom the members of a group take for its admins

A group's run: its members add, remove and promote members and leave, one after the other, and every action reaches
all others before the next.  The one who promotes writes the effective admins and the new one, the others add the new
one to the admins they store, and who is added knows only the one it was added by.  `agree_run` says when all members
take the same ones for admins nevertheless.
-/
namespace SecureChat
namespace GroupControl

open Device Runs

inductive Act
  | change (change : Change)
  | promote (memberId : Text)
  | leave

structure Dispatch where
  recipients : List Text
  signal : GroupNotificationSignal

/-- `PrivateGroupControlSender.send`. -/
def send (state : AdminState) (groupId : Text) (memberIds recipients : List Text) (action : Action)
    (target description photo : Option Text) : Dispatch where
  recipients := recipients.filter fun id => decide (id ≠ [] ∧ id ≠ state.userId)
  signal :=
    { senderId := state.userId
      groupId
      groupName := state.group.peerName
      action
      groupMembers := (LinkedSet.ofList (memberIds.filter fun id => decide (id ≠ []))).elems
      targetMemberId := target
      description
      photo }

/-- A new member is sent a CREATE, the others an ADD_MEMBER; a removal is told to the removed one too. -/
def AdminState.dispatches (state : AdminState) (groupId : Text) : Change → List Dispatch
  | .addMembers ids => (state.additions ids).elems.flatMap fun newMember =>
    [send state groupId (state.updated (.addMembers ids)) [newMember] .CREATE none state.group.groupDescription
        state.group.groupPhoto,
      send state groupId (state.updated (.addMembers ids)) state.members .ADD_MEMBER (some newMember) none none]
  | .removeMember target =>
    [send state groupId (state.updated (.removeMember target)) (state.updated (.removeMember target) ++ [target])
      .REMOVE_MEMBER (some target) none none]

namespace Device

variable (d : Device)

def promoteToAdmin (groupId memberId : Text) : Option (Device × List Dispatch) :=
  match d._adminState groupId with
  | none => none
  | some state =>
    if ¬ memberId ∈ state.members ∨ memberId ∈ state.admins then none
    else some
      (d.updateGroupAdmins groupId (state.admins ++ [memberId]),
        [send state groupId (_split state.group.groupMembers) state.members .UPDATE_ADMIN (some memberId) none none])

def completeLocalGroupLeave (groupId userId : Text) : Device :=
  d.patch groupId fun c =>
    if c.isGroup then
      { c with
        groupMembers := some (join ((_split c.groupMembers).filter fun id => decide (id ≠ userId)))
        groupAdmins := some (join ((_split c.groupAdmins).filter fun id => decide (id ≠ userId)))
        isArchived := true }
    else c

def _leaveGroup (groupId : Text) : Option (Device × List Dispatch) :=
  match d.userId, d.conversations.get groupId with
  | some userId, some group =>
    if group.isGroup = false ∨ ¬ userId ∈ _split group.groupMembers then none
    else
      let remaining := (_split group.groupMembers).filter fun id => decide (id ≠ userId)
      some
        (d.completeLocalGroupLeave groupId userId,
          [send ⟨userId, group, remaining, []⟩ groupId remaining remaining .LEAVE_GROUP none none none])
  | _, _ => none

/-- An action as its member's device does it, and what it sends; `none` if it is refused. -/
def perform (groupId : Text) : Act → Option (Device × List Dispatch)
  | .change change => (d.snapshot groupId change).map fun state =>
    (operate (ownSteps groupId change) d, state.dispatches groupId change)
  | .promote memberId => d.promoteToAdmin groupId memberId
  | .leave => d._leaveGroup groupId

def deliver (photoAccepted : Text → Bool) (dispatches : List Dispatch) (userId : Text) : Device :=
  (dispatches.filter fun x => x.recipients.contains userId).foldl
    (fun d x => d._groupNotification photoAccepted x.signal) d

def effectiveAdmins (groupId : Text) : LinkedSet Text :=
  match d.conversations.get groupId with
  | none => .empty
  | some group => group.effectiveAdmins

end Device

structure Group where
  device : Text → Device
  members : List Text

def Act.members (members : List Text) (actor : Text) : Act → List Text
  | .change (.addMembers ids) =>
    members ++ (LinkedSet.ofList (ids.filter fun id => decide (id ≠ []) && !members.contains id)).elems
  | .change (.removeMember id) => members.filter fun m => decide (m ≠ id)
  | .promote _ => members
  | .leave => members.filter fun m => decide (m ≠ actor)

def Group.step (photoAccepted : Text → Bool) (groupId : Text) (s : Group) (x : Text × Act) : Option Group :=
  if ¬ x.1 ∈ s.members then none
  else
    match (s.device x.1).perform groupId x.2 with
    | none => none
    | some (own, dispatches) => some
      { device := fun u => if u = x.1 then own else (s.device u).deliver photoAccepted dispatches u
        members := x.2.members s.members x.1 }

/-- **Agreement**: all members take the same ones for admins. -/
def Group.Agrees (groupId : Text) (s : Group) : Prop :=
  ∀ u ∈ s.members, ∀ v ∈ s.members, ∀ a,
    a ∈ (s.device u).effectiveAdmins groupId ↔ a ∈ (s.device v).effectiveAdmins groupId

/-- After an action the members agree, and a promotion takes the admins' rights from nobody. -/
def Group.Harmless (photoAccepted : Text → Bool) (groupId : Text) (s : Group) (x : Text × Act) : Prop :=
  ∀ s', s.step photoAccepted groupId x = some s' → s'.Agrees groupId ∧
    ∀ memberId, x.2 = .promote memberId → ∀ u ∈ s.members, ∀ a ∈ ((s.device u).effectiveAdmins groupId).elems,
      a ∈ (s'.device u).effectiveAdmins groupId

/-- An id that a stored list can hold, and whose device starts from the CREATE it receives. -/
def Group.Newcomer (groupId : Text) (s : Group) (id : Text) : Prop :=
  ¬ ',' ∈ id ∧ (s.device id).conversations.get groupId = none ∧ (s.device id).removedFrom groupId = []

/-- The condition on an action: members are added by the only effective admin and are new to the group, and a promotion
finds admins stored on every other member's device. -/
def Group.Conforms (groupId : Text) (s : Group) (x : Text × Act) : Prop :=
  match x.2 with
  | .change (.addMembers ids) =>
    (∀ a ∈ ((s.device x.1).effectiveAdmins groupId).elems, a = x.1) ∧
      ∀ id ∈ ids, id ≠ [] → ¬ id ∈ s.members → s.Newcomer groupId id
  | .promote _ =>
    ∀ u ∈ s.members, u ≠ x.1 → ∀ c ∈ (s.device u).conversations.get groupId, c.admins.elems ≠ []
  | _ => True

instance (groupId : Text) (s : Group) (x : Text × Act) : Decidable (s.Conforms groupId x) := by
  unfold Group.Conforms Group.Newcomer
  split <;> infer_instance

/-- A device holds the group with these members and these effective admins, and none of the members is recorded as
removed. -/
structure Device.Holds (d : Device) (groupId : Text) (members : List Text) (admins : Text → Prop) : Prop where
  row : ∃ c, d.conversations.get groupId = some c ∧ c.isGroup = true ∧ c.groupMembers = some (join members) ∧
    ∀ a, a ∈ c.effectiveAdmins ↔ admins a
  records : ∀ m ∈ members, ¬ m ∈ d.removedFrom groupId

structure Clean (l : List Text) : Prop where
  nodup : l.Nodup
  ids : ∀ id ∈ l, id ≠ [] ∧ ¬ ',' ∈ id

/-- All members hold the group with the same members and the same effective admins. -/
structure Group.Settled (groupId : Text) (s : Group) : Prop where
  clean : Clean s.members
  users : ∀ u, (s.device u).userId = some u
  holds : ∃ admins, ∀ u ∈ s.members, (s.device u).Holds groupId s.members admins

section Lists

variable {l : List Text} {c c' : ConversationEntity} {a id : Text}

theorem pieces_join_clean (h : Clean l) : Csv.pieces ',' (join l) = l := by
  refine (Csv.pieces_join l).trans ?_
  have hpieces : ∀ id ∈ l, Csv.pieces ',' id = [id] := fun id hid =>
    Csv.pieces_of_clean (h.ids id hid).1 (h.ids id hid).2
  rw [List.flatMap_congr hpieces, List.flatMap_singleton']

theorem split_join_clean (h : Clean l) : _split (some (join l)) = l := pieces_join_clean h

theorem members_clean (h : Clean l) (hc : c.groupMembers = some (join l)) : c.members.elems = l := by
  have he : c.members = LinkedSet.ofList (Csv.pieces ',' (join l)) := by
    rw [ConversationEntity.members, hc]
    rfl
  rw [he, pieces_join_clean h, LinkedSet.elems_ofList h.nodup]

theorem Clean.filter (h : Clean l) (p : Text → Bool) : Clean (l.filter p) :=
  ⟨h.nodup.filter p, fun id hid => h.ids id (List.mem_filter.1 hid).1⟩

theorem Clean.normal (h : Clean l) : (LinkedSet.ofList (l.filter fun id => decide (id ≠ []))).elems = l := by
  have hfilter : l.filter (fun id => decide (id ≠ [])) = l :=
    List.filter_eq_self.2 fun id hid => decide_eq_true (h.ids id hid).1
  rw [hfilter, LinkedSet.elems_ofList h.nodup]

theorem mem_effective_iff : a ∈ c.effectiveAdmins ↔
    (c.admins.elems = [] ∧ c.members.elems.head? = some a) ∨ a ∈ c.admins := by
  unfold ConversationEntity.effectiveAdmins
  split
  · rename_i first rest hadmins hmembers
    rw [LinkedSet.mem_ofList, List.mem_singleton, hmembers, List.head?_cons, Option.some_inj]
    constructor
    · exact fun he => .inl ⟨hadmins, he.symm⟩
    · rintro (⟨-, he⟩ | hmem)
      · exact he.symm
      · have hmem : a ∈ c.admins.elems := hmem
        rw [hadmins] at hmem
        cases hmem
  · rename_i hnot
    refine ⟨.inr, fun h => h.resolve_left fun ⟨hadmins, hhead⟩ => ?_⟩
    cases hmembers : c.members.elems with
    | nil => simp [hmembers] at hhead
    | cons first rest => exact hnot first rest hadmins hmembers

theorem mem_effective (h : Clean l) (hc : c.groupMembers = some (join l)) :
    a ∈ effective (_split c.groupAdmins) l ↔ a ∈ c.effectiveAdmins := by
  have hstored : ∀ x, x ∈ c.admins.elems ↔ x ∈ _split c.groupAdmins := fun x => mem_split.symm
  have hnil : c.admins.elems = [] ↔ _split c.groupAdmins = [] := by
    simp only [List.eq_nil_iff_forall_not_mem, hstored]
  have hmem : a ∈ c.admins ↔ a ∈ _split c.groupAdmins := hstored a
  rw [mem_effective_iff, members_clean h hc, hnil, hmem]
  unfold effective
  cases _split c.groupAdmins with
  | nil => cases l <;> simp [eq_comm]
  | cons first rest => simp

theorem mem_effective_stored {x : Text} (hx : x ∈ c.admins) : a ∈ c.effectiveAdmins ↔ a ∈ c.admins := by
  refine mem_effective_iff.trans ⟨fun h => h.resolve_left fun ⟨hnil, _⟩ => ?_, .inr⟩
  have hx : x ∈ c.admins.elems := hx
  rw [hnil] at hx
  cases hx

theorem mem_effective_empty (hnil : c.admins.elems = []) (h : Clean l) (hc : c.groupMembers = some (join l)) :
    a ∈ c.effectiveAdmins ↔ l.head? = some a := by
  refine mem_effective_iff.trans ?_
  rw [members_clean h hc]
  refine ⟨fun h => h.elim And.right fun hmem => ?_, fun h => .inl ⟨hnil, h⟩⟩
  have hmem : a ∈ c.admins.elems := hmem
  rw [hnil] at hmem
  cases hmem

theorem clean_effective (h : a ∈ c.effectiveAdmins) : a ≠ [] ∧ ¬ ',' ∈ a := by
  rcases mem_effective_iff.1 h with ⟨-, hhead⟩ | hstored
  · have hmem : a ∈ c.members := List.mem_of_mem_head? hhead
    exact Csv.clean_of_mem_csv hmem
  · exact Csv.clean_of_mem_csv hstored

theorem mem_csv_join_clean {ids : List Text} (h : ∀ id ∈ ids, id ≠ [] ∧ ¬ ',' ∈ id) :
    a ∈ _csv (some (join ids)) ↔ a ∈ ids := by
  refine Csv.mem_csv_join.trans ⟨fun ⟨id, hid, ha⟩ => ?_, fun ha => ⟨a, ha, ?_⟩⟩
  · rw [Csv.pieces_of_clean (h id hid).1 (h id hid).2, List.mem_singleton] at ha
    rwa [ha]
  · rw [Csv.pieces_of_clean (h a ha).1 (h a ha).2]
    exact List.mem_singleton_self a

end Lists

section Records

variable {d d' : Device} {g m x : Text}

theorem removedFrom_congr (h : d'.cryptoState = d.cryptoState) : d'.removedFrom g = d.removedFrom g := by
  rw [removedFrom, h, removedFrom]

theorem mem_removedFrom_record : m ∈ (d.record g x).removedFrom g ↔ m ∈ d.removedFrom g ∨ m = x := by
  rw [mem_removedFrom, mem_removedFrom, record, LinkedSet.mem_insert, List.append_cancel_left_eq]

theorem mem_removedFrom_clear : m ∈ (d.clear g x).removedFrom g ↔ m ∈ d.removedFrom g ∧ m ≠ x := by
  rw [mem_removedFrom, mem_removedFrom, clear, LinkedSet.mem_erase, ne_eq, List.append_cancel_left_eq]

theorem rotateOwnGroupKey_crypto (d : Device) (g : Text) : (d._rotateOwnGroupKey g).cryptoState = d.cryptoState := by
  rw [_rotateOwnGroupKey]
  cases d.userId <;> rfl

theorem updateGroupMembers_crypto (d : Device) (g : Text) (ids : List Text) :
    (d.updateGroupMembers g ids).cryptoState = d.cryptoState := (patch_rest _).2.2

theorem updateGroupAdmins_crypto (d : Device) (g : Text) (ids : List Text) :
    (d.updateGroupAdmins g ids).cryptoState = d.cryptoState := (patch_rest _).2.2

end Records

section Notify

variable {d : Device} {signal : GroupNotificationSignal} {c : ConversationEntity} {photoAccepted : Text → Bool}

theorem admits_admin (hgroup : c.isGroup = true) (hadmin : signal.senderId ∈ c.effectiveAdmins) :
    admits signal c = true := by
  rw [admits, hgroup, decide_eq_true hadmin, Bool.or_true, Bool.and_true]

theorem notify_add (haction : signal.action = .ADD_MEMBER) (h : d.conversations.get signal.groupId = some c)
    (hadmits : admits signal c = true) : d._groupNotification photoAccepted signal = d.addMember signal := by
  rw [_groupNotification, haction, h]
  simp only [hadmits, Bool.true_eq_false, if_false]

theorem notify_remove (haction : signal.action = .REMOVE_MEMBER) (h : d.conversations.get signal.groupId = some c)
    (hadmits : admits signal c = true) : d._groupNotification photoAccepted signal = d.removeMember signal c := by
  rw [_groupNotification, haction, h]
  simp only [hadmits, Bool.true_eq_false, if_false]

theorem notify_leave (haction : signal.action = .LEAVE_GROUP) (h : d.conversations.get signal.groupId = some c)
    (hadmits : admits signal c = true) : d._groupNotification photoAccepted signal = d.leaveGroup signal c := by
  rw [_groupNotification, haction, h]
  simp only [hadmits, Bool.true_eq_false, if_false]

theorem notify_promote (haction : signal.action = .UPDATE_ADMIN) (h : d.conversations.get signal.groupId = some c)
    (hadmits : admits signal c = true) : d._groupNotification photoAccepted signal = d.updateAdmin signal c := by
  rw [_groupNotification, haction, h]
  simp only [hadmits, Bool.true_eq_false, if_false]

theorem notify_create (haction : signal.action = .CREATE) (h : d.conversations.get signal.groupId = none) :
    d._groupNotification photoAccepted signal = d.insertGroup photoAccepted signal := by
  rw [_groupNotification, haction, h]

end Notify

section Own

variable {d : Device} {g p t : Text} {l : List Text} {admins : Text → Prop} {state : AdminState}

theorem adminState_spec (hd : d.Holds g l admins) (hl : Clean l) (hu : d.userId = some p)
    (h : d._adminState g = some state) : ∃ c, d.conversations.get g = some c ∧ c.isGroup = true ∧
      c.groupMembers = some (join l) ∧ (∀ a, a ∈ c.effectiveAdmins ↔ admins a) ∧
      state = ⟨p, c, l, effective (_split c.groupAdmins) l⟩ ∧ p ∈ l ∧ admins p := by
  obtain ⟨c, hget, hgroup, hmembers, hadmins⟩ := hd.row
  rw [_adminState, hu, hget] at h
  dsimp only at h
  rw [hmembers, split_join_clean hl] at h
  split at h
  · cases h
  · rename_i hguard
    rw [not_or, not_or, not_not, not_not] at hguard
    refine ⟨c, hget, hgroup, hmembers, hadmins, (Option.some.inj h).symm, hguard.2.1, ?_⟩
    rw [← hadmins]
    exact (mem_effective hl hmembers).1 hguard.2.2

theorem clean_admins {c : ConversationEntity} (hl : Clean l) (hmembers : c.groupMembers = some (join l)) :
    ∀ id ∈ effective (_split c.groupAdmins) l, id ≠ [] ∧ ¬ ',' ∈ id := fun _ hid =>
  clean_effective ((mem_effective hl hmembers).1 hid)

theorem promote_own (hd : d.Holds g l admins) (hl : Clean l) (hu : d.userId = some p)
    (h : d._adminState g = some state) (ht : t ∈ l) :
    (d.updateGroupAdmins g (state.admins ++ [t])).Holds g l fun a => admins a ∨ a = t := by
  obtain ⟨c, hget, hgroup, hmembers, hadmins, rfl, -, -⟩ := adminState_spec hd hl hu h
  have hclean : ∀ id ∈ effective (_split c.groupAdmins) l ++ [t], id ≠ [] ∧ ¬ ',' ∈ id := by
    intro id hid
    rcases List.mem_append.1 hid with hid | hid
    · exact clean_admins hl hmembers id hid
    · rw [List.mem_singleton.1 hid]
      exact hl.ids t ht
  refine ⟨⟨_, get_updateGroupAdmins hget _, hgroup, hmembers, fun a => ?_⟩, fun m hm => ?_⟩
  · have hstored : ∀ x, x ∈ ({ c with
        groupAdmins := some (join (effective (_split c.groupAdmins) l ++ [t])) } : ConversationEntity).admins ↔
        x ∈ effective (_split c.groupAdmins) l ++ [t] := fun x => mem_csv_join_clean hclean
    refine (mem_effective_stored ((hstored t).2 (List.mem_append_right _ (List.mem_singleton_self t)))).trans ?_
    rw [hstored, List.mem_append, List.mem_singleton, mem_effective hl hmembers, hadmins]
  · rw [removedFrom_congr (updateGroupAdmins_crypto d g _)]
    exact hd.records m hm

end Own

section Effective

variable {c c' : ConversationEntity} {l l' : List Text} {t a : Text}

theorem effective_without (hl : Clean l) (hmembers : c.groupMembers = some (join l))
    (hmembers' : c'.groupMembers = some (join (l.filter fun id => decide (id ≠ t))))
    (hstored : ∀ x, x ∈ c'.admins ↔ x ∈ c.admins ∧ x ≠ t) {b : Text} (hb : b ∈ c.effectiveAdmins) (hbt : b ≠ t) :
    a ∈ c'.effectiveAdmins ↔ a ∈ c.effectiveAdmins ∧ a ≠ t := by
  cases hadmins : c.admins.elems with
  | nil =>
    have hnil' : c'.admins.elems = [] := by
      refine List.eq_nil_iff_forall_not_mem.2 fun x hx => ?_
      have hx : x ∈ c.admins.elems := ((hstored x).1 hx).1
      rw [hadmins] at hx
      cases hx
    have hhead : l.head? = some b := (mem_effective_empty hadmins hl hmembers).1 hb
    have hhead' : (l.filter fun id => decide (id ≠ t)).head? = some b := by
      cases l with
      | nil => cases hhead
      | cons first rest =>
        cases hhead
        simp [hbt]
    rw [mem_effective_empty hnil' (hl.filter _) hmembers', mem_effective_empty hadmins hl hmembers, hhead, hhead']
    constructor
    · intro ha
      cases ha
      exact ⟨rfl, hbt⟩
    · exact And.left
  | cons first rest =>
    have hfirst : first ∈ c.admins := by
      show first ∈ c.admins.elems
      rw [hadmins]
      exact List.mem_cons_self
    have hb : b ∈ c.admins := (mem_effective_stored hfirst).1 hb
    rw [mem_effective_stored ((hstored b).2 ⟨hb, hbt⟩), mem_effective_stored hfirst, hstored]

theorem effective_handover (hl : Clean l)
    (hmembers' : c'.groupMembers = some (join (l.filter fun id => decide (id ≠ t))))
    (hstored : ∀ x, x ∈ c'.admins ↔ x ∈ c.admins ∧ x ≠ t) (hall : ∀ b, b ∈ c.effectiveAdmins → b = t) :
    a ∈ c'.effectiveAdmins ↔ (l.filter fun id => decide (id ≠ t)).head? = some a := by
  refine mem_effective_empty (List.eq_nil_iff_forall_not_mem.2 fun x hx => ?_) (hl.filter _) hmembers'
  obtain ⟨hx, hne⟩ := (hstored x).1 hx
  exact hne (hall x ((mem_effective_stored hx).2 hx))

theorem effective_grown (hl : Clean l) (hl' : Clean l') (hmembers : c.groupMembers = some (join l))
    (hmembers' : c'.groupMembers = some (join l')) (hhead : l'.head? = l.head?)
      (hadmins : c'.groupAdmins = c.groupAdmins) :
    a ∈ c'.effectiveAdmins ↔ a ∈ c.effectiveAdmins := by
  rw [mem_effective_iff, mem_effective_iff, members_clean hl hmembers, members_clean hl' hmembers', hhead,
    admins_congr hadmins]

end Effective

section Others

variable {d : Device} {l : List Text} {admins : Text → Prop} {signal : GroupNotificationSignal} {t : Text}
  {photoAccepted : Text → Bool}

theorem promote_other (hd : d.Holds signal.groupId l admins) (hl : Clean l) (haction : signal.action = .UPDATE_ADMIN)
    (hadmin : admins signal.senderId) (htarget : signal.targetMemberId = some t) (ht : t ∈ l)
    (hstored : ∀ c ∈ d.conversations.get signal.groupId, c.admins.elems ≠ []) :
    (d._groupNotification photoAccepted signal).Holds signal.groupId l fun a => admins a ∨ a = t := by
  obtain ⟨c, hget, hgroup, hmembers, hadmins⟩ := hd.row
  have ht : t ∈ c.members := by
    show t ∈ c.members.elems
    rwa [members_clean hl hmembers]
  rw [notify_promote haction hget (admits_admin hgroup ((hadmins _).2 hadmin))]
  refine ⟨⟨_, get_updateAdmin htarget ht hget, hgroup, hmembers, fun a => ?_⟩, fun m hm => ?_⟩
  · obtain ⟨x, hx⟩ := List.exists_mem_of_ne_nil _ (hstored c hget)
    have hclean : ∀ id ∈ (c.admins.insert t).elems, id ≠ [] ∧ ¬ ',' ∈ id := by
      intro id hid
      have hid : id ∈ c.admins.insert t := hid
      rcases LinkedSet.mem_insert.1 hid with hid | rfl
      · exact Csv.clean_of_mem_csv hid
      · exact Csv.clean_of_mem_csv ht
    have hnew : ∀ y, y ∈ ({ c with groupAdmins := some (join (c.admins.insert t).elems) } :
        ConversationEntity).admins ↔ y ∈ c.admins.insert t := fun y => mem_csv_join_clean hclean
    have hx : x ∈ c.admins := hx
    rw [mem_effective_stored ((hnew x).2 (LinkedSet.mem_insert.2 (.inl hx))), hnew, LinkedSet.mem_insert, ← hadmins,
      mem_effective_stored hx]
  · have hcrypto : (d.updateAdmin signal c).cryptoState = d.cryptoState := by
      rw [updateAdmin, htarget]
      dsimp only
      rw [if_neg (not_not.2 ht)]
      exact updateGroupAdmins_crypto d _ _
    rw [removedFrom_congr hcrypto]
    exact hd.records m hm

theorem removeMember_crypto {c : ConversationEntity} (htarget : signal.targetMemberId = some t)
    (hother : some t ≠ d.userId) : (d.removeMember signal c).cryptoState = (d.record signal.groupId t).cryptoState := by
  rw [removeMember, htarget]
  simp only [hother, if_false, rotateOwnGroupKey_crypto]
  rw [record, record]
  split
  · rw [updateGroupAdmins_crypto, updateGroupMembers_crypto]
  · rw [updateGroupMembers_crypto]

theorem remove_other (hd : d.Holds signal.groupId l admins) (hl : Clean l) (haction : signal.action = .REMOVE_MEMBER)
    (hadmin : admins signal.senderId) (htarget : signal.targetMemberId = some t) (hself : signal.senderId ≠ t)
    (hother : some t ≠ d.userId) (hlist : signal.groupMembers = l.filter fun id => decide (id ≠ t)) :
    (d._groupNotification photoAccepted signal).Holds signal.groupId (l.filter fun id => decide (id ≠ t))
      fun a => admins a ∧ a ≠ t := by
  obtain ⟨c, hget, hgroup, hmembers, hadmins⟩ := hd.row
  rw [notify_remove haction hget (admits_admin hgroup ((hadmins _).2 hadmin))]
  obtain ⟨c', hget', hgroup', hmembers', hadmins'⟩ := get_removeMember htarget hget
  rw [hlist] at hmembers'
  refine ⟨⟨c', hget', hgroup'.trans hgroup, hmembers', fun a => ?_⟩, fun m hm => ?_⟩
  · have hstored : ∀ x, x ∈ c'.admins ↔ x ∈ c.admins ∧ x ≠ t := by
      intro x
      rw [ConversationEntity.admins, hadmins']
      split
      · exact mem_join_filter
      · rename_i hnot
        exact ⟨fun hx => ⟨hx, fun he => hnot (he ▸ hx)⟩, And.left⟩
    rw [effective_without hl hmembers hmembers' hstored ((hadmins _).2 hadmin) hself, hadmins]
  · obtain ⟨hm, hne⟩ := List.mem_filter.1 hm
    rw [removedFrom_congr (removeMember_crypto htarget hother), mem_removedFrom_record]
    rintro (hrecord | rfl)
    · exact hd.records m hm hrecord
    · exact of_decide_eq_true hne rfl

def adminsWithout (l : List Text) (admins : Text → Prop) (t a : Text) : Prop :=
  ((∃ b, admins b ∧ b ≠ t) ∧ admins a ∧ a ≠ t) ∨
    (¬ (∃ b, admins b ∧ b ≠ t) ∧ (l.filter fun id => decide (id ≠ t)).head? = some a)

theorem leave_other (hd : d.Holds signal.groupId l admins) (hl : Clean l) (haction : signal.action = .LEAVE_GROUP)
    (hmember : signal.senderId ∈ l) :
    (d._groupNotification photoAccepted signal).Holds signal.groupId
      (l.filter fun id => decide (id ≠ signal.senderId)) (adminsWithout l admins signal.senderId) := by
  obtain ⟨c, hget, hgroup, hmembers, hadmins⟩ := hd.row
  have hadmits : admits signal c = true := by
    rw [admits, hgroup, haction]
    rfl
  have hmember : signal.senderId ∈ c.members := by
    show signal.senderId ∈ c.members.elems
    rwa [members_clean hl hmembers]
  rw [notify_leave haction hget hadmits]
  have hget' := get_leaveGroup hmember hget
  rw [members_clean hl hmembers] at hget'
  refine ⟨⟨_, hget', hgroup, rfl, fun a => ?_⟩, fun m hm => ?_⟩
  · unfold adminsWithout
    by_cases hothers : ∃ b, admins b ∧ b ≠ signal.senderId
    · obtain ⟨b, hb, hne⟩ := hothers
      rw [effective_without hl hmembers rfl (fun x => mem_join_filter) ((hadmins b).2 hb) hne, hadmins]
      have hexists : ∃ b, admins b ∧ b ≠ signal.senderId := ⟨b, hb, hne⟩
      simp only [hexists, true_and, not_true_eq_false, false_and, or_false]
    · rw [effective_handover (c := c) hl rfl (fun x => mem_join_filter) fun b hb => ?_]
      · simp only [hothers, false_and, not_false_eq_true, true_and, false_or]
      · by_contra hne
        exact hothers ⟨b, (hadmins b).1 hb, hne⟩
  · obtain ⟨hm, hne⟩ := List.mem_filter.1 hm
    have hcrypto : (d.leaveGroup signal c).cryptoState = (d.record signal.groupId signal.senderId).cryptoState := by
      rw [leaveGroup, if_neg (not_not.2 hmember)]
      simp only [rotateOwnGroupKey_crypto]
      rw [record, record, updateGroupAdmins_crypto, updateGroupMembers_crypto]
    rw [removedFrom_congr hcrypto, mem_removedFrom_record]
    rintro (hrecord | he)
    · exact hd.records m hm hrecord
    · exact of_decide_eq_true hne he

theorem add_other {joined : List Text} {rest : List Text} (hrow : ∃ c, d.conversations.get signal.groupId = some c ∧
      c.isGroup = true ∧ c.groupMembers = some (join (l ++ rest)) ∧ ∀ a, a ∈ c.effectiveAdmins ↔ admins a)
    (hrecords : ∀ m ∈ l, ¬ m ∈ d.removedFrom signal.groupId) (hl : Clean (l ++ joined)) (hrest : Clean (l ++ rest))
    (hne : l ≠ []) (haction : signal.action = .ADD_MEMBER) (hadmin : admins signal.senderId)
    (htarget : signal.targetMemberId = some t) (hlist : signal.groupMembers = l ++ joined) :
    let d' := d._groupNotification photoAccepted signal
    (∀ m, m ∈ d'.removedFrom signal.groupId ↔ m ∈ d.removedFrom signal.groupId ∧ m ≠ t) ∧
      ∃ c, d'.conversations.get signal.groupId = some c ∧ c.isGroup = true ∧
        c.groupMembers = some (join (l ++ joined.filter fun id => !(d'.removedFrom signal.groupId).contains id)) ∧
        ∀ a, a ∈ c.effectiveAdmins ↔ admins a := by
  obtain ⟨c, hget, hgroup, hmembers, hadmins⟩ := hrow
  intro d'
  have hd' : d' = d.addMember signal := notify_add haction hget (admits_admin hgroup ((hadmins _).2 hadmin))
  have hremoved : d'.removedFrom signal.groupId = (d.clear signal.groupId t).removedFrom signal.groupId := by
    rw [hd', addMember, htarget]
    exact removedFrom_congr (updateGroupMembers_crypto _ _ _)
  have hrecords' : ∀ m, m ∈ d'.removedFrom signal.groupId ↔ m ∈ d.removedFrom signal.groupId ∧ m ≠ t := by
    intro m
    rw [hremoved, mem_removedFrom_clear]
  have hlisted : d.listed signal = l ++ joined.filter fun id => !(d'.removedFrom signal.groupId).contains id := by
    have hkeep : l.filter (fun id => !(d'.removedFrom signal.groupId).contains id) = l := by
      refine List.filter_eq_self.2 fun m hm => ?_
      rw [Bool.not_eq_true', ← Bool.not_eq_true, List.contains_iff_mem, hrecords']
      exact fun h => hrecords m hm h.1
    have hout : d.leavesOut signal = d'.removedFrom signal.groupId := by rw [leavesOut, haction, htarget, hremoved]
    rw [listed, hout, hlist, List.filter_append, hkeep]
  have hnew : Clean (l ++ joined.filter fun id => !(d'.removedFrom signal.groupId).contains id) := by
    refine ⟨hl.nodup.sublist (List.Sublist.append_left List.filter_sublist l), fun id hid => hl.ids id ?_⟩
    exact List.mem_append.2 ((List.mem_append.1 hid).imp_right fun h => (List.mem_filter.1 h).1)
  have hget' : d'.conversations.get signal.groupId = some { c with groupMembers := some (join (d.listed signal)) } := by
    rw [hd']
    exact get_addMember haction hget
  refine ⟨hrecords', _, hget', hgroup, by rw [hlisted], fun a => ?_⟩
  rw [← hadmins]
  refine effective_grown hrest hnew hmembers (by rw [hlisted]) ?_ rfl
  cases l with
  | nil => exact absurd rfl hne
  | cons first rest => rfl

theorem create_new (hnone : d.conversations.get signal.groupId = none) (hrecords : d.removedFrom signal.groupId = [])
    (hl : Clean l) (haction : signal.action = .CREATE) (hsender : signal.senderId ∈ l) (hlist : signal.groupMembers = l)
    {u : Text} (huser : d.userId = some u) (hu : u ∈ l) (hadmins : ∀ a, admins a ↔ a = signal.senderId) :
    (d._groupNotification photoAccepted signal).Holds signal.groupId l admins := by
  have hinsert : ∃ c, (d.insertGroup photoAccepted signal).conversations.get signal.groupId = some c ∧
      c.isGroup = true ∧ c.groupMembers = some (join l) ∧ c.groupAdmins = some signal.senderId ∧
      (d.insertGroup photoAccepted signal).cryptoState = d.cryptoState := by
    rw [insertGroup, huser]
    dsimp only
    rw [if_neg (by rw [hlist]; simp [hu, hsender])]
    exact ⟨_, Table.get_put_self, rfl, by rw [hlist], rfl, rfl⟩
  rw [notify_create haction hnone]
  obtain ⟨c, hget, hgroup, hmembers, hstored, hcrypto⟩ := hinsert
  refine ⟨⟨c, hget, hgroup, hmembers, fun a => ?_⟩, fun m _ => ?_⟩
  · have hmem : ∀ x, x ∈ c.admins ↔ x = signal.senderId := by
      intro x
      rw [ConversationEntity.admins, hstored]
      refine Csv.mem_csv.trans ?_
      rw [Csv.pieces_of_clean (hl.ids _ hsender).1 (hl.ids _ hsender).2, List.mem_singleton]
    rw [mem_effective_stored ((hmem _).2 rfl), hmem, hadmins]
  · rw [removedFrom_congr hcrypto, hrecords]
    exact List.not_mem_nil

end Others

section OwnChange

variable {d : Device} {g p t : Text} {l : List Text} {admins : Text → Prop} {state : AdminState} {ids : List Text}

theorem operate_addMembers (h : d.snapshot g (.addMembers ids) = some state) :
    operate (ownSteps g (.addMembers ids)) d = ids.foldl
      (fun d id => if id ∈ state.additions ids then d.clear g id else d)
      (d.updateGroupMembers g (state.updated (.addMembers ids))) := by
  have hfold : ∀ (rest : List Text) (d : Device),
      ((rest.map fun id => Operating.write fun d state' =>
          if id ∈ state'.additions ids then d.clear g id else d).foldl (fun o f => f o) (d, some state)).1 =
        rest.foldl (fun d id => if id ∈ state.additions ids then d.clear g id else d) d := by
    intro rest
    induction rest with
    | nil => exact fun _ => rfl
    | cons id rest ih => exact fun d => ih _
  have hsecond : Operating.write (fun d state => d.updateGroupMembers g (state.updated (.addMembers ids)))
      (d, d.snapshot g (.addMembers ids)) =
      (d.updateGroupMembers g (state.updated (.addMembers ids)), some state) := by rw [Operating.write, h]
  rw [operate, ownSteps, List.foldl_cons, List.foldl_cons, hsecond]
  exact hfold ids _

theorem operate_removeMember (h : d.snapshot g (.removeMember t) = some state) :
    operate (ownSteps g (.removeMember t)) d =
      ((if t ∈ state.admins then
          (d.updateGroupMembers g (state.updated (.removeMember t))).updateGroupAdmins g
            (state.admins.filter fun id => decide (id ≠ t))
        else d.updateGroupMembers g (state.updated (.removeMember t))).record g t).resetGroupSession g := by
  simp only [operate, ownSteps, laterSteps, List.foldl_cons, List.foldl_nil, Operating.write, h]

theorem foldl_clear (joins : Text → Prop) [DecidablePred joins] : ∀ (ids : List Text) (d : Device),
    (ids.foldl (fun d id => if joins id then d.clear g id else d) d).conversations = d.conversations ∧
      (ids.foldl (fun d id => if joins id then d.clear g id else d) d).userId = d.userId ∧
      ∀ m, m ∈ (ids.foldl (fun d id => if joins id then d.clear g id else d) d).removedFrom g ↔
        m ∈ d.removedFrom g ∧ ¬ (m ∈ ids ∧ joins m)
  | [], d => ⟨rfl, rfl, fun m => by simp⟩
  | id :: ids, d => by
    rw [List.foldl_cons]
    by_cases hid : joins id
    · rw [if_pos hid]
      obtain ⟨hc, hu, hr⟩ := foldl_clear joins ids (d.clear g id)
      refine ⟨hc, hu, fun m => ?_⟩
      rw [hr, mem_removedFrom_clear, List.mem_cons]
      by_cases hm : m = id
      · subst hm
        simp [hid]
      · simp [hm]
    · rw [if_neg hid]
      obtain ⟨hc, hu, hr⟩ := foldl_clear joins ids d
      refine ⟨hc, hu, fun m => ?_⟩
      rw [hr, List.mem_cons]
      by_cases hm : m = id
      · subst hm
        simp [hid]
      · simp [hm]

theorem add_own (hd : d.Holds g l admins) (hl : Clean l) (hu : d.userId = some p)
    (h : d.snapshot g (.addMembers ids) = some state) (hnew : Clean (l ++ (state.additions ids).elems)) :
    (operate (ownSteps g (.addMembers ids)) d).Holds g (l ++ (state.additions ids).elems) admins := by
  obtain ⟨c, hget, hgroup, hmembers, hadmins, rfl, hp, -⟩ :=
    adminState_spec hd hl hu (Option.filter_eq_some_iff.1 h).1
  obtain ⟨hc, -, hr⟩ := foldl_clear (g := g) (fun id => id ∈ AdminState.additions ⟨p, c, l, _⟩ ids) ids
    (d.updateGroupMembers g (l ++ (AdminState.additions ⟨p, c, l, effective (_split c.groupAdmins) l⟩ ids).elems))
  have hget' : (operate (ownSteps g (.addMembers ids)) d).conversations.get g = some
      { c with
        groupMembers :=
          some (join (l ++ (AdminState.additions ⟨p, c, l, effective (_split c.groupAdmins) l⟩ ids).elems)) } := by
    rw [operate_addMembers h]
    refine (congrArg (Table.get g) hc).trans ?_
    exact get_updateGroupMembers hget _
  refine ⟨⟨_, hget', hgroup, rfl, fun a => ?_⟩, fun m hm => ?_⟩
  · rw [← hadmins]
    refine effective_grown hl hnew hmembers rfl ?_ rfl
    cases l with
    | nil => cases hp
    | cons first rest => rfl
  · rw [operate_addMembers h]
    intro hremoved
    obtain ⟨hold, hnot⟩ := (hr m).1 hremoved
    rw [removedFrom_congr (updateGroupMembers_crypto _ _ _)] at hold
    rcases List.mem_append.1 hm with hm | hm
    · exact hd.records m hm hold
    · have hm : m ∈ AdminState.additions ⟨p, c, l, effective (_split c.groupAdmins) l⟩ ids := hm
      exact hnot ⟨(List.mem_filter.1 (LinkedSet.mem_ofList.1 hm)).1, hm⟩

theorem remove_own (hd : d.Holds g l admins) (hl : Clean l) (hu : d.userId = some p)
    (h : d.snapshot g (.removeMember t) = some state) :
    (operate (ownSteps g (.removeMember t)) d).Holds g (l.filter fun id => decide (id ≠ t)) fun a =>
      admins a ∧ a ≠ t := by
  obtain ⟨hstate, hallows⟩ := Option.filter_eq_some_iff.1 h
  obtain ⟨c, hget, hgroup, hmembers, hadmins, rfl, hp, hadmin⟩ := adminState_spec hd hl hu hstate
  have hpt : p ≠ t := fun he => of_decide_eq_true (Bool.and_eq_true_iff.1 hallows).1 he.symm
  have hfilter : ∀ id ∈ (effective (_split c.groupAdmins) l).filter (fun id => decide (id ≠ t)),
      id ≠ [] ∧ ¬ ',' ∈ id := fun id hid => clean_admins hl hmembers id (List.mem_filter.1 hid).1
  rw [operate_removeMember h]
  by_cases ht : t ∈ effective (_split c.groupAdmins) l
  · rw [if_pos ht]
    refine ⟨⟨_, get_updateGroupAdmins (get_updateGroupMembers hget _) _, hgroup, rfl, fun a => ?_⟩, fun m hm => ?_⟩
    · have hstored : ∀ x, x ∈ ({ c with
          groupMembers := some (join (l.filter fun id => decide (id ≠ t)))
          groupAdmins := some (join ((effective (_split c.groupAdmins) l).filter fun id => decide (id ≠ t))) } :
          ConversationEntity).admins ↔ admins x ∧ x ≠ t := by
        intro x
        refine (mem_csv_join_clean hfilter).trans ?_
        rw [List.mem_filter, decide_eq_true_eq, mem_effective hl hmembers, hadmins]
      exact (mem_effective_stored ((hstored p).2 ⟨hadmin, hpt⟩)).trans (hstored a)
    · obtain ⟨hm, hne⟩ := List.mem_filter.1 hm
      intro hremoved
      rcases mem_removedFrom_record.1 hremoved with hold | he
      · rw [removedFrom_congr (updateGroupAdmins_crypto _ _ _),
          removedFrom_congr (updateGroupMembers_crypto _ _ _)] at hold
        exact hd.records m hm hold
      · exact of_decide_eq_true hne he
  · rw [if_neg ht]
    refine ⟨⟨_, get_updateGroupMembers hget _, hgroup, rfl, fun a => ?_⟩, fun m hm => ?_⟩
    · have ht : ¬ t ∈ c.effectiveAdmins := fun he => ht ((mem_effective hl hmembers).2 he)
      have hstored : ∀ x, x ∈ ({ c with groupMembers := some (join (l.filter fun id => decide (id ≠ t))) } :
          ConversationEntity).admins ↔ x ∈ c.admins ∧ x ≠ t :=
        fun x => ⟨fun hx => ⟨hx, fun he => ht (he ▸ (mem_effective_stored (c := c) hx).2 hx)⟩, And.left⟩
      refine (effective_without hl hmembers rfl hstored ((hadmins p).2 hadmin) hpt).trans ?_
      rw [hadmins]
    · obtain ⟨hm, hne⟩ := List.mem_filter.1 hm
      intro hremoved
      rcases mem_removedFrom_record.1 hremoved with hold | he
      · rw [removedFrom_congr (updateGroupMembers_crypto _ _ _)] at hold
        exact hd.records m hm hold
      · exact of_decide_eq_true hne he

end OwnChange

/-! ## The device's user -/

section User

variable {d d' : Device} {g : Text} {photoAccepted : Text → Bool} {signal : GroupNotificationSignal}

theorem patch_userId (f : ConversationEntity → ConversationEntity) : (d.patch g f).userId = d.userId :=
    (patch_rest f).2.1

theorem rotateOwnGroupKey_userId (d : Device) (g : Text) : (d._rotateOwnGroupKey g).userId = d.userId := by
  rw [_rotateOwnGroupKey]
  split <;> rfl

theorem userId_if {b : Prop} [Decidable b] {x : Option Text} (h : d.userId = x) (h' : d'.userId = x) :
    (if b then d else d').userId = x := by
  split
  · exact h
  · exact h'

theorem notify_userId : (d._groupNotification photoAccepted signal).userId = d.userId := by
  rw [_groupNotification]
  split
  · rw [insertGroup]
    split
    · rfl
    · split <;> rfl
  · rw [mergeGroup]
    split
    · rfl
    · exact userId_if ((patch_userId _).trans (userId_if ((patch_userId _).trans (patch_userId _)) (patch_userId _)))
        (userId_if ((patch_userId _).trans (patch_userId _)) (patch_userId _))
  · rfl
  · split
    · rfl
    · split
      · rw [addMember]
        cases signal.targetMemberId <;> exact patch_userId _
      · rw [removeMember]
        split
        · rfl
        · refine userId_if ((patch_userId _).trans
            (userId_if ((patch_userId _).trans (patch_userId _)) (patch_userId _))) ?_
          exact (rotateOwnGroupKey_userId _ _).trans
            (userId_if ((patch_userId _).trans (patch_userId _)) (patch_userId _))
      · rw [leaveGroup]
        split
        · rfl
        · exact (rotateOwnGroupKey_userId _ _).trans ((patch_userId _).trans (patch_userId _))
      · rw [updateAdmin]
        split
        · rfl
        · split
          · rfl
          · exact patch_userId _
      · rw [updateProfile]
        repeat' split
        all_goals first | rfl | exact patch_userId _

theorem deliver_userId (dispatches : List Dispatch) (u : Text) :
    (d.deliver photoAccepted dispatches u).userId = d.userId := by
  rw [deliver]
  induction dispatches.filter fun x => x.recipients.contains u generalizing d with
  | nil => rfl
  | cons x rest ih => exact ih.trans notify_userId

theorem perform_userId {act : Act} {own : Device} {dispatches : List Dispatch}
    (h : d.perform g act = some (own, dispatches)) : own.userId = d.userId := by
  cases act with
  | change change =>
    obtain ⟨state, hstate, he⟩ := Option.map_eq_some_iff.1 h
    cases he
    cases change with
    | addMembers ids =>
      rw [operate_addMembers hstate]
      exact (foldl_clear (g := g) (fun id => id ∈ state.additions ids) ids _).2.1.trans (patch_userId _)
    | removeMember target =>
      rw [operate_removeMember hstate]
      exact userId_if ((patch_userId _).trans (patch_userId _)) (patch_userId _)
  | promote memberId =>
    rw [perform, promoteToAdmin] at h
    split at h
    · cases h
    · split at h
      · cases h
      · cases h
        exact patch_userId _
  | leave =>
    rw [perform, _leaveGroup] at h
    split at h
    · split at h
      · cases h
      · cases h
        exact patch_userId _
    · cases h

end User

section Step

variable {d : Device} {g p t u : Text} {l : List Text} {admins : Text → Prop} {state : AdminState} {ids : List Text}
  {photoAccepted : Text → Bool} {s s' : Group} {own : Device} {dispatches : List Dispatch}

theorem Device.Holds.mem_effectiveAdmins (hd : d.Holds g l admins) {a : Text} : a ∈ d.effectiveAdmins g ↔ admins a := by
  obtain ⟨c, hget, -, -, hadmins⟩ := hd.row
  rw [effectiveAdmins, hget]
  exact hadmins a

theorem mem_recipients {memberIds recipients : List Text} {action : Action} {target description photo : Option Text} :
    u ∈ (send state g memberIds recipients action target description photo).recipients ↔
      u ∈ recipients ∧ u ≠ [] ∧ u ≠ state.userId := by
  rw [send, List.mem_filter, decide_eq_true_eq]

theorem deliver_single {x : Dispatch} (h : u ∈ x.recipients) :
    d.deliver photoAccepted [x] u = d._groupNotification photoAccepted x.signal := by
  have hfilter : [x].filter (fun x => x.recipients.contains u) = [x] :=
    List.filter_eq_self.2 fun y hy => by rw [List.mem_singleton.1 hy, List.contains_iff_mem.2 h]
  rw [deliver, hfilter]
  rfl

theorem dispatches_member (hu : u ∈ state.members) (hne : u ≠ []) (hself : u ≠ state.userId) :
    (state.dispatches g (.addMembers ids)).filter (fun x => x.recipients.contains u) =
      (state.additions ids).elems.map fun newMember => send state g (state.updated (.addMembers ids)) state.members
        .ADD_MEMBER (some newMember) none none := by
  have hnew : ∀ newMember ∈ (state.additions ids).elems, u ≠ newMember := by
    rintro newMember hmem rfl
    exact not_mem_of_mem_additions hmem hu
  have hcreate : ∀ newMember ∈ (state.additions ids).elems, (send state g (state.updated (.addMembers ids)) [newMember]
      .CREATE none state.group.groupDescription state.group.groupPhoto).recipients.contains u = false := by
    intro newMember hmem
    rw [← Bool.not_eq_true, List.contains_iff_mem, mem_recipients, List.mem_singleton]
    exact fun h => hnew newMember hmem h.1
  have hadd : ∀ newMember, (send state g (state.updated (.addMembers ids)) state.members .ADD_MEMBER (some newMember)
      none none).recipients.contains u = true := fun newMember =>
    List.contains_iff_mem.2 (mem_recipients.2 ⟨hu, hne, hself⟩)
  rw [AdminState.dispatches]
  revert hcreate
  induction (state.additions ids).elems with
  | nil => exact fun _ => rfl
  | cons newMember rest ih =>
    intro hcreate
    rw [List.flatMap_cons, List.filter_append, List.map_cons, ih fun n hn => hcreate n (List.mem_cons_of_mem _ hn)]
    rw [List.filter_cons, List.filter_cons, List.filter_nil, hcreate newMember List.mem_cons_self, hadd]
    rfl

theorem dispatches_new (hu : u ∈ state.additions ids) (hne : u ≠ []) (hself : u ≠ state.userId) :
    (state.dispatches g (.addMembers ids)).filter (fun x => x.recipients.contains u) =
      [send state g (state.updated (.addMembers ids)) [u] .CREATE none state.group.groupDescription
        state.group.groupPhoto] := by
  have hold : ¬ u ∈ state.members := not_mem_of_mem_additions hu
  have hadd : ∀ newMember, (send state g (state.updated (.addMembers ids)) state.members .ADD_MEMBER (some newMember)
      none none).recipients.contains u = false := by
    intro newMember
    rw [← Bool.not_eq_true, List.contains_iff_mem, mem_recipients]
    exact fun h => hold h.1
  have hcreate : ∀ newMember, (send state g (state.updated (.addMembers ids)) [newMember] .CREATE none
      state.group.groupDescription state.group.groupPhoto).recipients.contains u = decide (newMember = u) := by
    intro newMember
    rw [Bool.eq_iff_iff, List.contains_iff_mem, mem_recipients, List.mem_singleton, decide_eq_true_eq]
    exact ⟨fun h => h.1.symm, fun h => ⟨h.symm, hne, hself⟩⟩
  have hfilter : ∀ news : List Text, (news.flatMap fun newMember =>
      [send state g (state.updated (.addMembers ids)) [newMember] .CREATE none state.group.groupDescription
          state.group.groupPhoto,
        send state g (state.updated (.addMembers ids)) state.members .ADD_MEMBER (some newMember) none none]).filter
        (fun x => x.recipients.contains u) =
      (news.filter fun n => decide (n = u)).map fun newMember =>
        send state g (state.updated (.addMembers ids)) [newMember] .CREATE none state.group.groupDescription
          state.group.groupPhoto := by
    intro news
    induction news with
    | nil => rfl
    | cons newMember rest ih =>
      rw [List.flatMap_cons, List.filter_append, ih, List.filter_cons, List.filter_cons, List.filter_nil, hcreate, hadd,
        List.filter_cons]
      split <;> rfl
  rw [AdminState.dispatches, hfilter]
  have hone : (state.additions ids).elems.filter (fun n => decide (n = u)) = [u] := by
    have hcount := List.filter_eq (l := (state.additions ids).elems) u
    rw [List.count_eq_one_of_mem (state.additions ids).nodup hu] at hcount
    exact hcount
  rw [hone]
  rfl

def Device.announced (photoAccepted : Text → Bool) (g : Text) (state : AdminState) (updated : List Text) (d : Device)
    (news : List Text) : Device :=
  (news.map fun n => send state g updated state.members .ADD_MEMBER (some n) none none).foldl
    (fun d x => d._groupNotification photoAccepted x.signal) d

theorem announced_spec (photoAccepted : Text → Bool) {joined : List Text} (hl : Clean (l ++ joined)) (hne : l ≠ []) (hadmin : admins state.userId) :
    ∀ (news rest : List Text) (d : Device), (∃ c, d.conversations.get g = some c ∧ c.isGroup = true ∧
        c.groupMembers = some (join (l ++ rest)) ∧ ∀ a, a ∈ c.effectiveAdmins ↔ admins a) →
      (∀ m ∈ l, ¬ m ∈ d.removedFrom g) → Clean (l ++ rest) →
      let d' := d.announced photoAccepted g state (l ++ joined) news
      (∀ m, m ∈ d'.removedFrom g ↔ m ∈ d.removedFrom g ∧ ¬ m ∈ news) ∧
        ∃ c, d'.conversations.get g = some c ∧ c.isGroup = true ∧ c.groupMembers = some (join (l ++
          if news = [] then rest else joined.filter fun id => !(d'.removedFrom g).contains id)) ∧
          ∀ a, a ∈ c.effectiveAdmins ↔ admins a
  | [], rest, d, hrow, _, _ => ⟨fun m => by simp [Device.announced], hrow⟩
  | n :: news, rest, d, hrow, hrecords, hrest => by
    intro d'
    let d₁ := d._groupNotification photoAccepted
      (send state g (l ++ joined) state.members .ADD_MEMBER (some n) none none).signal
    obtain ⟨hremoved, hrow₁⟩ : (∀ m, m ∈ d₁.removedFrom g ↔ m ∈ d.removedFrom g ∧ m ≠ n) ∧
        ∃ c, d₁.conversations.get g = some c ∧ c.isGroup = true ∧
          c.groupMembers = some (join (l ++ joined.filter fun id => !(d₁.removedFrom g).contains id)) ∧
          ∀ a, a ∈ c.effectiveAdmins ↔ admins a :=
      @add_other d l admins (send state g (l ++ joined) state.members .ADD_MEMBER (some n) none none).signal n _ joined
        rest hrow hrecords hl hrest hne rfl hadmin rfl hl.normal
    have hclean : Clean (l ++ joined.filter fun id => !(d₁.removedFrom g).contains id) := by
      refine ⟨hl.nodup.sublist (List.Sublist.append_left List.filter_sublist l), fun id hid => hl.ids id ?_⟩
      exact List.mem_append.2 ((List.mem_append.1 hid).imp_right fun h => (List.mem_filter.1 h).1)
    obtain ⟨hremoved', c, hget, hgroup, hmembers, hadmins⟩ := announced_spec photoAccepted hl hne hadmin news _ d₁ hrow₁
      (fun m hm h => hrecords m hm ((hremoved m).1 h).1) hclean
    refine ⟨fun m => ?_, c, hget, hgroup, ?_, hadmins⟩
    · refine (hremoved' m).trans ?_
      rw [hremoved, List.mem_cons, not_or, and_assoc]
    · rw [hmembers, if_neg (List.cons_ne_nil n news)]
      cases news with
      | nil => rfl
      | cons n' _ => rw [if_neg (List.cons_ne_nil _ _)]; rfl

theorem Group.step_spec {x : Text × Act} (h : s.step photoAccepted g x = some s') : x.1 ∈ s.members ∧
    ∃ own dispatches, (s.device x.1).perform g x.2 = some (own, dispatches) ∧ s'.device x.1 = own ∧
      (∀ u, u ≠ x.1 → s'.device u = (s.device u).deliver photoAccepted dispatches u) ∧
      s'.members = x.2.members s.members x.1 := by
  rw [Group.step] at h
  split at h
  · cases h
  · rename_i hmember
    split at h
    · cases h
    · rename_i own dispatches hperform
      cases h
      exact ⟨not_not.1 hmember, own, dispatches, hperform, if_pos rfl, fun u hu => if_neg hu, rfl⟩

theorem Group.Settled.users_step {x : Text × Act} (hs : s.Settled g)
    (h : s.step photoAccepted g x = some s') (u : Text) :
    (s'.device u).userId = some u := by
  obtain ⟨-, own, dispatches, hperform, hown, hothers, -⟩ := Group.step_spec h
  by_cases hu : u = x.1
  · rw [hu, hown, perform_userId hperform]
    exact hs.users x.1
  · rw [hothers u hu, deliver_userId]
    exact hs.users u

theorem Group.Settled.promote (hs : s.Settled g) (hc : s.Conforms g (p, .promote t))
    (h : s.step photoAccepted g (p, .promote t) = some s') : s'.members = s.members ∧
      ∃ admins, (∀ u ∈ s.members, (s.device u).Holds g s.members admins) ∧
        ∀ u ∈ s.members, (s'.device u).Holds g s.members fun a => admins a ∨ a = t := by
  obtain ⟨hp, own, dispatches, hperform, hown, hothers, hmembers⟩ := Group.step_spec h
  obtain ⟨admins, holds⟩ := hs.holds
  refine ⟨hmembers, admins, holds, fun u hu => ?_⟩
  rw [perform, promoteToAdmin] at hperform
  split at hperform
  · cases hperform
  · rename_i state hstate
    obtain ⟨c, hget, -, hrow, -, hstateEq, -, hadmin⟩ := adminState_spec (holds p hp) hs.clean (hs.users p) hstate
    split at hperform
    · cases hperform
    · rename_i hguard
      rw [not_or, not_not] at hguard
      have ht : t ∈ s.members := by
        have ht := hguard.1
        rwa [hstateEq] at ht
      cases hperform
      by_cases hup : u = p
      · rw [hup, hown]
        exact promote_own (holds p hp) hs.clean (hs.users p) hstate ht
      · have hrecipient : u ∈ (send state g (_split state.group.groupMembers) state.members .UPDATE_ADMIN (some t) none
            none).recipients := by
          rw [mem_recipients, hstateEq]
          exact ⟨hu, (hs.clean.ids u hu).1, hup⟩
        have hsender : admins (send state g (_split state.group.groupMembers) state.members .UPDATE_ADMIN (some t) none
            none).signal.senderId := by
          rw [hstateEq]
          exact hadmin
        rw [hothers u hup, deliver_single hrecipient]
        exact promote_other (holds u hu) hs.clean rfl hsender rfl ht (hc u hu hup)

theorem Group.Settled.remove (hs : s.Settled g) (h : s.step photoAccepted g (p, .change (.removeMember t)) = some s') :
    ∃ admins, ∀ u ∈ s'.members, (s'.device u).Holds g s'.members admins := by
  obtain ⟨hp, own, dispatches, hperform, hown, hothers, hmembers⟩ := Group.step_spec h
  obtain ⟨admins, holds⟩ := hs.holds
  refine ⟨fun a => admins a ∧ a ≠ t, fun u hu => ?_⟩
  rw [hmembers] at hu ⊢
  obtain ⟨hu, hut⟩ := List.mem_filter.1 hu
  have hut : u ≠ t := of_decide_eq_true hut
  obtain ⟨state, hsnapshot, he⟩ := Option.map_eq_some_iff.1 hperform
  cases he
  by_cases hup : u = p
  · rw [hup, hown]
    exact remove_own (holds p hp) hs.clean (hs.users p) hsnapshot
  · obtain ⟨hstate, hallows⟩ := Option.filter_eq_some_iff.1 hsnapshot
    obtain ⟨c, hget, -, hrow, -, hstateEq, -, hadmin⟩ := adminState_spec (holds p hp) hs.clean (hs.users p) hstate
    have hupdated : state.updated (.removeMember t) = s.members.filter fun id => decide (id ≠ t) := by
      rw [hstateEq]
      rfl
    have hself : state.userId = p := by rw [hstateEq]
    have hpt : p ≠ t := fun he => by
      rw [hstateEq] at hallows
      exact of_decide_eq_true (Bool.and_eq_true_iff.1 hallows).1 he.symm
    have hrecipient : u ∈ (send state g (state.updated (.removeMember t)) (state.updated (.removeMember t) ++ [t])
        .REMOVE_MEMBER (some t) none none).recipients := by
      rw [mem_recipients, hupdated, hself]
      exact ⟨List.mem_append_left _ (List.mem_filter.2 ⟨hu, decide_eq_true hut⟩), (hs.clean.ids u hu).1, hup⟩
    have hlist : (send state g (state.updated (.removeMember t)) (state.updated (.removeMember t) ++ [t])
        .REMOVE_MEMBER (some t) none none).signal.groupMembers = s.members.filter fun id => decide (id ≠ t) := by
      rw [hupdated]
      exact (hs.clean.filter _).normal
    have hsender : (send state g (state.updated (.removeMember t)) (state.updated (.removeMember t) ++ [t])
        .REMOVE_MEMBER (some t) none none).signal.senderId = p := hself
    rw [hothers u hup, AdminState.dispatches, deliver_single hrecipient]
    refine remove_other (holds u hu) hs.clean rfl (hsender ▸ hadmin) rfl (hsender ▸ hpt) ?_ hlist
    rw [hs.users u]
    exact fun he => hut (Option.some.inj he).symm

/-- Who leaves is taken out by the others; where the last admin leaves, all turn to the same first member. -/
theorem Group.Settled.leave (hs : s.Settled g) (h : s.step photoAccepted g (p, .leave) = some s') :
    ∃ admins, ∀ u ∈ s'.members, (s'.device u).Holds g s'.members admins := by
  obtain ⟨hp, own, dispatches, hperform, -, hothers, hmembers⟩ := Group.step_spec h
  obtain ⟨admins, holds⟩ := hs.holds
  refine ⟨adminsWithout s.members admins p, fun u hu => ?_⟩
  rw [hmembers] at hu ⊢
  obtain ⟨hu, hup⟩ := List.mem_filter.1 hu
  have hup : u ≠ p := of_decide_eq_true hup
  obtain ⟨c, hget, hgroup, hrow, -⟩ := (holds p hp).row
  rw [perform, _leaveGroup, hs.users p, hget] at hperform
  dsimp only at hperform
  split at hperform
  · cases hperform
  · cases hperform
    rw [hrow, split_join_clean hs.clean] at hothers
    have hrecipient : u ∈ (send ⟨p, c, s.members.filter fun id => decide (id ≠ p), []⟩ g
        (s.members.filter fun id => decide (id ≠ p)) (s.members.filter fun id => decide (id ≠ p)) .LEAVE_GROUP none none
        none).recipients :=
      mem_recipients.2 ⟨List.mem_filter.2 ⟨hu, decide_eq_true hup⟩, (hs.clean.ids u hu).1, hup⟩
    rw [hothers u hup, deliver_single hrecipient]
    exact leave_other (holds u hu) hs.clean rfl hp

/-- The only admin adds members: the others process its ADD_MEMBERs, and who is new stores it as the admin. -/
theorem Group.Settled.add (hs : s.Settled g) (hc : s.Conforms g (p, .change (.addMembers ids)))
    (h : s.step photoAccepted g (p, .change (.addMembers ids)) = some s') : Clean s'.members ∧
      ∃ admins, ∀ u ∈ s'.members, (s'.device u).Holds g s'.members admins := by
  obtain ⟨hp, own, dispatches, hperform, hown, hothers, hmembers⟩ := Group.step_spec h
  obtain ⟨admins, holds⟩ := hs.holds
  obtain ⟨state, hsnapshot, he⟩ := Option.map_eq_some_iff.1 hperform
  cases he
  obtain ⟨hstate, hallows⟩ := Option.filter_eq_some_iff.1 hsnapshot
  obtain ⟨c, hget, -, hrow, heffective, hstateEq, -, hadmin⟩ :=
    adminState_spec (holds p hp) hs.clean (hs.users p) hstate
  have hself : state.userId = p := by rw [hstateEq]
  have hlist : state.members = s.members := by rw [hstateEq]
  have hmembers' : s'.members = s.members ++ (state.additions ids).elems := by
    rw [hmembers, AdminState.additions, hlist]
    rfl
  have hupdated : state.updated (.addMembers ids) = s.members ++ (state.additions ids).elems := by rw [← hlist]; rfl
  have hnewcomer : ∀ id ∈ state.additions ids, s.Newcomer g id := by
    intro id hid
    have hout : ¬ id ∈ s.members := by
      rw [← hlist]
      exact not_mem_of_mem_additions hid
    obtain ⟨hmem, hguard⟩ := List.mem_filter.1 (LinkedSet.mem_ofList.1 hid)
    exact hc.2 id hmem (of_decide_eq_true (Bool.and_eq_true_iff.1 hguard).1) hout
  have hclean : Clean (s.members ++ (state.additions ids).elems) := by
    refine ⟨List.nodup_append'.2 ⟨hs.clean.nodup, (state.additions ids).nodup, fun id hid hnew => ?_⟩, fun id hid => ?_⟩
    · rw [← hlist] at hid
      exact not_mem_of_mem_additions hnew hid
    · rcases List.mem_append.1 hid with hid | hid
      · exact hs.clean.ids id hid
      · have hguard := (List.mem_filter.1 (LinkedSet.mem_ofList.1 hid)).2
        exact ⟨of_decide_eq_true (Bool.and_eq_true_iff.1 hguard).1, (hnewcomer id hid).1⟩
  have honly : ∀ a, admins a ↔ a = p := by
    refine fun a => ⟨fun ha => hc.1 a ((holds p hp).mem_effectiveAdmins.2 ha), ?_⟩
    rintro rfl
    exact hadmin
  rw [hmembers']
  refine ⟨hclean, admins, fun u hu => ?_⟩
  by_cases hup : u = p
  · rw [hup, hown]
    exact add_own (holds p hp) hs.clean (hs.users p) hsnapshot hclean
  · rw [hothers u hup, deliver]
    rcases List.mem_append.1 hu with hu | hu
    · have hjoin : (state.additions ids).elems ≠ [] := of_decide_eq_true (Bool.and_eq_true_iff.1 hallows).1
      rw [dispatches_member (hlist ▸ hu) (hs.clean.ids u hu).1 (hself ▸ hup), hupdated]
      obtain ⟨hremoved, c', hget', hgroup', hrow', hadmins'⟩ :=
        announced_spec photoAccepted (g := g) hclean (List.ne_nil_of_mem hp) (hself ▸ hadmin)
          (state.additions ids).elems [] (s.device u) (by simpa using (holds u hu).row) (holds u hu).records
          (by simpa using hs.clean)
      have hkept : ∀ m ∈ s.members ++ (state.additions ids).elems, ¬ m ∈ ((s.device u).announced photoAccepted g state
          (s.members ++ (state.additions ids).elems) (state.additions ids).elems).removedFrom g := by
        intro m hm hrecord
        obtain ⟨hold, hnot⟩ := (hremoved m).1 hrecord
        exact (List.mem_append.1 hm).elim (fun hm => (holds u hu).records m hm hold) hnot
      have hall : ((state.additions ids).elems.filter fun id => !(((s.device u).announced photoAccepted g state
          (s.members ++ (state.additions ids).elems) (state.additions ids).elems).removedFrom g).contains id) =
          (state.additions ids).elems := by
        refine List.filter_eq_self.2 fun id hid => ?_
        rw [Bool.not_eq_true', ← Bool.not_eq_true, List.contains_iff_mem]
        exact hkept id (List.mem_append_right _ hid)
      rw [if_neg hjoin, hall] at hrow'
      exact ⟨⟨c', hget', hgroup', hrow', hadmins'⟩, hkept⟩
    · have hu : u ∈ state.additions ids := hu
      rw [dispatches_new hu (hclean.ids u (List.mem_append_right _ hu)).1 (hself ▸ hup), hupdated]
      obtain ⟨-, hnone, hrecords⟩ := hnewcomer u hu
      have hsender : (send state g (s.members ++ (state.additions ids).elems) [u] .CREATE none
          state.group.groupDescription state.group.groupPhoto).signal.senderId = p := hself
      exact create_new hnone hrecords hclean rfl (hsender ▸ List.mem_append_left _ hp) hclean.normal (hs.users u)
        (List.mem_append_right _ hu) (hsender ▸ honly)

/-- **The step lemma**: an action that meets the condition leaves all members with the same members and admins. -/
theorem Group.Settled.step {x : Text × Act} (hs : s.Settled g) (hc : s.Conforms g x)
    (h : s.step photoAccepted g x = some s') : s'.Settled g := by
  have hmembers := (Group.step_spec h).2
  obtain ⟨-, -, -, -, -, hmembers⟩ := hmembers
  obtain ⟨p, act⟩ := x
  match act, hc, h, hmembers with
  | .change (.addMembers ids), hc, h, _ =>
    obtain ⟨hclean, hholds⟩ := hs.add hc h
    exact ⟨hclean, hs.users_step h, hholds⟩
  | .change (.removeMember t), _, h, hmembers => exact ⟨hmembers ▸ hs.clean.filter _, hs.users_step h, hs.remove h⟩
  | .leave, _, h, hmembers => exact ⟨hmembers ▸ hs.clean.filter _, hs.users_step h, hs.leave h⟩
  | .promote t, hc, h, _ =>
    obtain ⟨hmembers, admins, -, holds⟩ := hs.promote hc h
    exact ⟨hmembers ▸ hs.clean, hs.users_step h, _, hmembers ▸ holds⟩

theorem Group.Settled.agrees (hs : s.Settled g) : s.Agrees g := by
  obtain ⟨admins, holds⟩ := hs.holds
  intro u hu v hv a
  rw [(holds u hu).mem_effectiveAdmins, (holds v hv).mem_effectiveAdmins]

theorem Group.Settled.harmless {x : Text × Act} (hs : s.Settled g) (hc : s.Conforms g x) :
    s.Harmless photoAccepted g x := by
  intro s' h
  refine ⟨(hs.step hc h).agrees, fun t ht u hu a ha => ?_⟩
  obtain ⟨p, act⟩ := x
  cases ht
  obtain ⟨-, admins, holds, holds'⟩ := hs.promote hc h
  exact (holds' u hu).mem_effectiveAdmins.2 (.inl ((holds u hu).mem_effectiveAdmins.1 ha))

end Step

section Creation

variable {photoAccepted : Text → Bool} {groupId groupName creator : Text} {ids : List Text} {device : Text → Device}

/-- `ContactService.createGroup`, once the invitations are out: the creator stores the group, and every member processes
its CREATE. -/
def Group.created (photoAccepted : Text → Bool) (groupId groupName creator : Text) (ids : List Text)
    (device : Text → Device) : Group :=
  let group : ConversationEntity :=
    { peerName := groupName
      isGroup := true
      groupMembers := some (join (creator :: ids))
      groupAdmins := some creator
      groupDescription := none
      groupPhoto := none
      isArchived := false
      isExportEnabled := false
      isReadOnly := false }
  { device := fun u =>
      if u = creator then { device u with conversations := (device u).conversations.put groupId group }
      else (device u).deliver photoAccepted
        [send ⟨creator, group, [], []⟩ groupId (creator :: ids) ids .CREATE none none none] u
    members := creator :: ids }

theorem Group.created_settled (hclean : Clean (creator :: ids)) (huser : ∀ u, (device u).userId = some u)
    (hnew : ∀ id ∈ creator :: ids, (device id).conversations.get groupId = none ∧
      (device id).removedFrom groupId = []) :
    (Group.created photoAccepted groupId groupName creator ids device).Settled groupId := by
  refine ⟨hclean, fun u => ?_, fun a => a = creator, fun u hu => ?_⟩
  · rw [created]
    dsimp only
    split
    · exact huser u
    · exact deliver_userId _ _ |>.trans (huser u)
  · have hu : u ∈ creator :: ids := hu
    rw [created]
    dsimp only
    split
    · rename_i hcreator
      refine ⟨⟨_, Table.get_put_self, rfl, rfl, fun a => ?_⟩, fun m _ => ?_⟩
      · have hmem : ∀ x, x ∈ _csv (some creator) ↔ x = creator := by
          intro x
          refine Csv.mem_csv.trans ?_
          obtain ⟨hne, hcomma⟩ := hclean.ids creator List.mem_cons_self
          rw [Csv.pieces_of_clean hne hcomma, List.mem_singleton]
        exact (mem_effective_stored ((hmem creator).2 rfl)).trans (hmem a)
      · show ¬ m ∈ (device u).removedFrom groupId
        rw [(hnew u hu).2]
        exact List.not_mem_nil
    · rename_i hother
      have hids : u ∈ ids := (List.mem_cons.1 hu).resolve_left hother
      rw [deliver_single (mem_recipients.2 ⟨hids, (hclean.ids u hu).1, hother⟩)]
      exact create_new (hnew u hu).1 (hnew u hu).2 hclean rfl List.mem_cons_self hclean.normal (huser u) hu
        fun _ => Iff.rfl

end Creation

/-- **The members agree on the admins** after every action of every run whose steps all meet the condition. -/
theorem agree_run {photoAccepted : Text → Bool} {groupId : Text} {s : Group} {acts : List (Text × Act)}
    (hs : s.Settled groupId) (hc : Meets (Group.step photoAccepted groupId) (Group.Conforms groupId) s acts) :
    Meets (Group.step photoAccepted groupId) (Group.Harmless photoAccepted groupId) s acts := by
  induction acts generalizing s with
  | nil => trivial
  | cons x acts ih =>
    refine ⟨hs.harmless hc.1, ?_⟩
    cases hstep : s.step photoAccepted groupId x with
    | none => trivial
    | some s' => exact ih (hs.step hc.1 hstep) (hc.tail hstep)

def annsGroup : Group :=
  .created (fun _ => true) "group".toList "climbers".toList "ann".toList ["bob".toList, "carl".toList]
    fun u => ⟨some u, .empty, .empty, .empty⟩

theorem annsGroup_settled : annsGroup.Settled "group".toList :=
  Group.created_settled ⟨by decide, by decide⟩ (fun _ => rfl) fun _ _ => ⟨rfl, rfl⟩

def conformingActs : List (Text × Act) :=
  [("ann".toList, .change (.addMembers ["dave".toList])), ("ann".toList, .promote "bob".toList),
    ("bob".toList, .change (.removeMember "carl".toList)), ("ann".toList, .leave)]

theorem agree_conformingActs :
    Meets (Group.step (fun _ => true) "group".toList) (Group.Harmless (fun _ => true) "group".toList) annsGroup
      conformingActs :=
  agree_run annsGroup_settled (by decide +kernel)

/-- **A promotion takes an admin's rights.** -/
theorem promotion_deposes : ∃ s, run (Group.step (fun _ => true) "group".toList) annsGroup
      [("ann".toList, .leave), ("bob".toList, .promote "carl".toList)] = some s ∧
    s.members = ["bob".toList, "carl".toList] ∧ ¬ s.Agrees "group".toList ∧
    ((s.device "bob".toList).effectiveAdmins "group".toList).elems = ["bob".toList, "carl".toList] ∧
    ((s.device "carl".toList).effectiveAdmins "group".toList).elems = ["carl".toList] := by
  have hrun : ∃ s, run (Group.step (fun _ => true) "group".toList) annsGroup
      [("ann".toList, .leave), ("bob".toList, .promote "carl".toList)] = some s ∧
      s.members = ["bob".toList, "carl".toList] ∧
      ((s.device "bob".toList).effectiveAdmins "group".toList).elems = ["bob".toList, "carl".toList] ∧
      ((s.device "carl".toList).effectiveAdmins "group".toList).elems = ["carl".toList] :=
    exists_run _ _ _ (by decide +kernel)
  obtain ⟨s, hs, hmembers, hbob, hcarl⟩ := hrun
  refine ⟨s, hs, hmembers, fun hagrees => ?_, hbob, hcarl⟩
  have hb : "bob".toList ∈ (s.device "bob".toList).effectiveAdmins "group".toList := by
    show _ ∈ LinkedSet.elems _
    rw [hbob]
    decide
  have hb : "bob".toList ∈ ((s.device "carl".toList).effectiveAdmins "group".toList).elems :=
    (hagrees _ (by rw [hmembers]; decide) "carl".toList (by rw [hmembers]; decide) _).1 hb
  rw [hcarl] at hb
  exact absurd hb (by decide)

end GroupControl
end SecureChat
