import SecureChat.GroupRoster
/-!
# GroupAuthority — who changes a group

`row_step` says what processing a control does to the row of a known conversation, members and admins together.  The
handler asks whether the sender is an admin, not whether it is a member, and an admin's ADD_MEMBER or REMOVE_MEMBER
writes whatever list it carries: an admin who is not on that list stays an admin, and its controls are still obeyed.
`authority_run` is what is left.
-/
namespace SecureChat
namespace GroupControl

open Runs

namespace Device

variable {d d' : Device} {g g' : Text} {signal : GroupNotificationSignal} {c c' : ConversationEntity}
  {photoAccepted : Text → Bool}

inductive RowStep (d : Device) (signal : GroupNotificationSignal) (c : ConversationEntity) : ConversationEntity → Prop
  | idle : RowStep d signal c c
  | merge {c' : ConversationEntity} (haction : signal.action = .CREATE) (hadmin : signal.senderId ∈ c.effectiveAdmins)
      (hgroup : c'.isGroup = c.isGroup)
      (hmembers : c'.groupMembers = some (join (LinkedSet.ofList (c.members.elems ++ d.listed signal)).elems))
      (hadmins : c'.groupAdmins = c.groupAdmins) : RowStep d signal c c'
  | add (haction : signal.action = .ADD_MEMBER) (hgroup : c.isGroup = true)
      (hadmin : signal.senderId ∈ c.effectiveAdmins) :
      RowStep d signal c { c with groupMembers := some (join (d.listed signal)) }
  | remove {c' : ConversationEntity} (target : Text) (haction : signal.action = .REMOVE_MEMBER)
      (htarget : signal.targetMemberId = some target) (hgroup : c.isGroup = true)
      (hadmin : signal.senderId ∈ c.effectiveAdmins) (hgroup' : c'.isGroup = true)
      (hmembers : c'.groupMembers = some (join signal.groupMembers))
      (hadmins : c'.groupAdmins = if target ∈ c.admins then
        some (join (c.admins.elems.filter fun id => decide (id ≠ target))) else c.groupAdmins) : RowStep d signal c c'
  | leave (haction : signal.action = .LEAVE_GROUP) (hgroup : c.isGroup = true) (hmember : signal.senderId ∈ c.members) :
      RowStep d signal c
        { c with
          groupMembers := some (join (c.members.elems.filter fun id => decide (id ≠ signal.senderId)))
          groupAdmins := some (join (c.admins.elems.filter fun id => decide (id ≠ signal.senderId))) }
  | promote (target : Text) (haction : signal.action = .UPDATE_ADMIN) (htarget : signal.targetMemberId = some target)
      (hgroup : c.isGroup = true) (hadmin : signal.senderId ∈ c.effectiveAdmins) (hmember : target ∈ c.members) :
      RowStep d signal c { c with groupAdmins := some (join (c.admins.insert target).elems) }
  | profile {c' : ConversationEntity} (hgroup : c.isGroup = true) (hadmin : signal.senderId ∈ c.effectiveAdmins)
      (hgroup' : c'.isGroup = true) (hmembers : c'.groupMembers = c.groupMembers)
      (hadmins : c'.groupAdmins = c.groupAdmins) : RowStep d signal c c'

theorem get_updateGroupMembers (h : d.conversations.get g = some c) (ids : List Text) :
    (d.updateGroupMembers g ids).conversations.get g = some { c with groupMembers := some (join ids) } := by
  rw [updateGroupMembers, patch_get_self, h]
  rfl

theorem get_updateGroupAdmins (h : d.conversations.get g = some c) (ids : List Text) :
    (d.updateGroupAdmins g ids).conversations.get g = some { c with groupAdmins := some (join ids) } := by
  rw [updateGroupAdmins, patch_get_self, h]
  rfl

theorem get_rotateOwnGroupKey (d : Device) (g k : Text) :
    (d._rotateOwnGroupKey g).conversations.get k = d.conversations.get k := by
  rw [(rotateOwnGroupKey_rest d g).1]

def Tame (f : ConversationEntity → ConversationEntity) : Prop :=
  ∀ c, (f c).groupMembers = c.groupMembers ∧ (f c).groupAdmins = c.groupAdmins ∧ (f c).isGroup = c.isGroup

theorem get_patch_tame {f : ConversationEntity → ConversationEntity} (hf : Tame f) (b : Bool)
    (h : d.conversations.get g = some c) :
    ∃ c', (if b then d.patch g f else d).conversations.get g = some c' ∧ c'.groupMembers = c.groupMembers ∧
      c'.groupAdmins = c.groupAdmins ∧ c'.isGroup = c.isGroup := by
  cases b with
  | false => exact ⟨c, h, rfl, rfl, rfl⟩
  | true =>
    refine ⟨f c, ?_, hf c⟩
    rw [if_pos rfl, patch_get_self, h]
    rfl

theorem mergeGroup_row (haction : signal.action = .CREATE) (h : d.conversations.get signal.groupId = some c) :
    ∃ c', (d.mergeGroup photoAccepted signal c).conversations.get signal.groupId = some c' ∧ RowStep d signal c c' := by
  have hlisted : d.listed signal = signal.groupMembers.filter fun id =>
    !(d.removedFrom signal.groupId).contains id := by
    rw [listed, leavesOut, haction]
  by_cases hadmin : signal.senderId ∈ c.effectiveAdmins
  · rw [mergeGroup, if_neg (not_not.2 hadmin)]
    dsimp only
    rw [← hlisted]
    have h₁ := get_updateGroupMembers h (LinkedSet.ofList (c.members.elems ++ d.listed signal)).elems
    obtain ⟨c₂, h₂, hm₂, ha₂, hg₂⟩ := get_patch_tame
      (f := fun c => { c with groupDescription := _groupDescription signal.description }) (fun _ => ⟨rfl, rfl, rfl⟩)
      signal.description.isSome h₁
    obtain ⟨c₃, h₃, hm₃, ha₃, hg₃⟩ := get_patch_tame
      (f := fun c => { c with groupPhoto := acceptedGroupPhotoBase64 photoAccepted signal.photo })
      (fun _ => ⟨rfl, rfl, rfl⟩) signal.photo.isSome h₂
    exact ⟨c₃, h₃, .merge haction hadmin (hg₃.trans hg₂) (hm₃.trans hm₂) (ha₃.trans ha₂)⟩
  · rw [mergeGroup, if_pos hadmin]
    exact ⟨c, h, .idle⟩

theorem get_addMember (haction : signal.action = .ADD_MEMBER) (h : d.conversations.get signal.groupId = some c) :
    (d.addMember signal).conversations.get signal.groupId =
      some { c with groupMembers := some (join (d.listed signal)) } := by
  rw [addMember, listed, leavesOut, haction]
  cases signal.targetMemberId with
  | none => exact get_updateGroupMembers h _
  | some target => exact get_updateGroupMembers (d := d.clear signal.groupId target) h _

theorem addMember_row (haction : signal.action = .ADD_MEMBER) (h : d.conversations.get signal.groupId = some c)
    (hgroup : c.isGroup = true) (hadmin : signal.senderId ∈ c.effectiveAdmins) :
    ∃ c', (d.addMember signal).conversations.get signal.groupId = some c' ∧ RowStep d signal c c' :=
  ⟨_, get_addMember haction h, .add haction hgroup hadmin⟩

theorem get_removeMember {target : Text} (htarget : signal.targetMemberId = some target)
    (h : d.conversations.get signal.groupId = some c) :
    ∃ c', (d.removeMember signal c).conversations.get signal.groupId = some c' ∧ c'.isGroup = c.isGroup ∧
      c'.groupMembers = some (join signal.groupMembers) ∧
      c'.groupAdmins = if target ∈ c.admins then
        some (join (c.admins.elems.filter fun id => decide (id ≠ target))) else c.groupAdmins := by
  rw [removeMember, htarget]
  have h₁ := get_updateGroupMembers h signal.groupMembers
  obtain ⟨c₂, h₂, hg₂, hm₂, ha₂⟩ : ∃ c₂, (if target ∈ c.admins then
      (d.updateGroupMembers signal.groupId signal.groupMembers).updateGroupAdmins signal.groupId
        (c.admins.elems.filter fun id => decide (id ≠ target))
      else d.updateGroupMembers signal.groupId signal.groupMembers).conversations.get signal.groupId = some c₂ ∧
      c₂.isGroup = c.isGroup ∧ c₂.groupMembers = some (join signal.groupMembers) ∧
      c₂.groupAdmins = if target ∈ c.admins then
        some (join (c.admins.elems.filter fun id => decide (id ≠ target))) else c.groupAdmins := by
    split
    · exact ⟨_, get_updateGroupAdmins h₁ _, rfl, rfl, rfl⟩
    · exact ⟨_, h₁, rfl, rfl, rfl⟩
  by_cases hlocal : some target = d.userId
  · obtain ⟨c₃, h₃, hm₃, ha₃, hg₃⟩ := get_patch_tame (f := fun c => { c with isArchived := true })
      (fun _ => ⟨rfl, rfl, rfl⟩) true h₂
    refine ⟨c₃, ?_, hg₃.trans hg₂, hm₃.trans hm₂, ha₃.trans ha₂⟩
    simp only [hlocal, if_true]
    exact h₃
  · refine ⟨c₂, ?_, hg₂, hm₂, ha₂⟩
    simp only [hlocal, if_false, get_rotateOwnGroupKey]
    exact h₂

theorem removeMember_row (haction : signal.action = .REMOVE_MEMBER) (h : d.conversations.get signal.groupId = some c)
    (hgroup : c.isGroup = true) (hadmin : signal.senderId ∈ c.effectiveAdmins) :
    ∃ c', (d.removeMember signal c).conversations.get signal.groupId = some c' ∧ RowStep d signal c c' := by
  cases htarget : signal.targetMemberId with
  | none =>
    rw [removeMember, htarget]
    exact ⟨c, h, .idle⟩
  | some target =>
    obtain ⟨c', h', hg, hm, ha⟩ := get_removeMember htarget h
    exact ⟨c', h', .remove target haction htarget hgroup hadmin (hg.trans hgroup) hm ha⟩

theorem get_leaveGroup (hmember : signal.senderId ∈ c.members) (h : d.conversations.get signal.groupId = some c) :
    (d.leaveGroup signal c).conversations.get signal.groupId = some
      { c with
        groupMembers := some (join (c.members.elems.filter fun id => decide (id ≠ signal.senderId)))
        groupAdmins := some (join (c.admins.elems.filter fun id => decide (id ≠ signal.senderId))) } := by
  rw [leaveGroup, if_neg (not_not.2 hmember)]
  simp only [get_rotateOwnGroupKey]
  exact get_updateGroupAdmins (get_updateGroupMembers h _) _

theorem leaveGroup_row (haction : signal.action = .LEAVE_GROUP) (h : d.conversations.get signal.groupId = some c)
    (hgroup : c.isGroup = true) :
    ∃ c', (d.leaveGroup signal c).conversations.get signal.groupId = some c' ∧ RowStep d signal c c' := by
  by_cases hmember : signal.senderId ∈ c.members
  · exact ⟨_, get_leaveGroup hmember h, .leave haction hgroup hmember⟩
  · rw [leaveGroup, if_pos hmember]
    exact ⟨c, h, .idle⟩

theorem get_updateAdmin {target : Text} (htarget : signal.targetMemberId = some target) (hmember : target ∈ c.members)
    (h : d.conversations.get signal.groupId = some c) :
    (d.updateAdmin signal c).conversations.get signal.groupId =
      some { c with groupAdmins := some (join (c.admins.insert target).elems) } := by
  rw [updateAdmin, htarget]
  dsimp only
  rw [if_neg (not_not.2 hmember)]
  exact get_updateGroupAdmins h _

theorem updateAdmin_row (haction : signal.action = .UPDATE_ADMIN) (h : d.conversations.get signal.groupId = some c)
    (hgroup : c.isGroup = true) (hadmin : signal.senderId ∈ c.effectiveAdmins) :
    ∃ c', (d.updateAdmin signal c).conversations.get signal.groupId = some c' ∧ RowStep d signal c c' := by
  cases htarget : signal.targetMemberId with
  | none =>
    rw [updateAdmin, htarget]
    exact ⟨c, h, .idle⟩
  | some target =>
    by_cases hmember : target ∈ c.members
    · exact ⟨_, get_updateAdmin htarget hmember h, .promote target haction htarget hgroup hadmin hmember⟩
    · rw [updateAdmin, htarget]
      dsimp only
      rw [if_pos hmember]
      exact ⟨c, h, .idle⟩

theorem updateProfile_row (h : d.conversations.get signal.groupId = some c) (hgroup : c.isGroup = true)
    (hadmin : signal.action.privileged = true → signal.senderId ∈ c.effectiveAdmins) :
    ∃ c', (d.updateProfile photoAccepted signal).conversations.get signal.groupId = some c' ∧
      RowStep d signal c c' := by
  have hsame : ∃ c', d.conversations.get signal.groupId = some c' ∧ RowStep d signal c c' := ⟨c, h, .idle⟩
  have hpatch : ∀ f, Tame f → signal.action.privileged = true →
      ∃ c', (d.patch signal.groupId f).conversations.get signal.groupId = some c' ∧ RowStep d signal c c' := by
    intro f hf hprivileged
    obtain ⟨c', h', hm, ha, hg⟩ := get_patch_tame hf true h
    exact ⟨c', h', .profile hgroup (hadmin hprivileged) (hg.trans hgroup) hm ha⟩
  rw [updateProfile]
  split
  · rename_i haction
    split
    · exact hsame
    · exact hpatch _ (fun _ => ⟨rfl, rfl, rfl⟩) (by rw [haction]; rfl)
  · rename_i haction
    split
    · exact hsame
    · split
      · exact hsame
      · exact hpatch _ (fun _ => ⟨rfl, rfl, rfl⟩) (by rw [haction]; rfl)
  · rename_i haction
    split
    · exact hsame
    · split
      · exact hsame
      · exact hpatch _ (fun _ => ⟨rfl, rfl, rfl⟩) (by rw [haction]; rfl)
  · rename_i haction
    split
    · exact hsame
    · exact hpatch _ (fun _ => ⟨rfl, rfl, rfl⟩) (by rw [haction]; rfl)
  · rename_i haction
    split
    · exact hsame
    · exact hpatch _ (fun _ => ⟨rfl, rfl, rfl⟩) (by rw [haction]; rfl)
  · exact hsame

theorem row_step (photoAccepted : Text → Bool) (h : d.conversations.get signal.groupId = some c) :
    ∃ c', (d._groupNotification photoAccepted signal).conversations.get signal.groupId = some c' ∧
      RowStep d signal c c' := by
  rw [_groupNotification]
  split
  · rename_i hnone
    cases h.symm.trans hnone
  · rename_i group haction hget
    cases h.symm.trans hget
    exact mergeGroup_row haction h
  · rename_i hnone _
    cases h.symm.trans hnone
  · rename_i group hget _
    cases h.symm.trans hget
    split
    · exact ⟨c, h, .idle⟩
    · rename_i hadmits
      obtain ⟨hgroup, hadmin⟩ : c.isGroup = true ∧
          (signal.action.privileged = true → signal.senderId ∈ c.effectiveAdmins) := by
        rw [Bool.not_eq_false, admits, Bool.and_eq_true, Bool.or_eq_true, Bool.not_eq_true',
          decide_eq_true_eq] at hadmits
        exact ⟨hadmits.1, fun hp => hadmits.2.resolve_left (by simp [hp])⟩
      split
      · rename_i haction
        exact addMember_row haction h hgroup (hadmin (by rw [haction]; rfl))
      · rename_i haction
        exact removeMember_row haction h hgroup (hadmin (by rw [haction]; rfl))
      · exact leaveGroup_row ‹_› h hgroup
      · rename_i haction
        exact updateAdmin_row haction h hgroup (hadmin (by rw [haction]; rfl))
      · exact updateProfile_row h hgroup hadmin

/-- A device whose row of `k` is that of `d`. -/
def Same (d d' : Device) (k : Text) : Prop := d'.conversations.get k = d.conversations.get k

theorem same_patch {k : Text} (hk : k ≠ g) (h : Same d d' k) (f : ConversationEntity → ConversationEntity) :
    Same d (d'.patch g f) k := (patch_get_of_ne f hk).trans h

theorem same_if {k : Text} (hk : k ≠ g) (h : Same d d' k) (f : ConversationEntity → ConversationEntity) (b : Prop)
    [Decidable b] : Same d (if b then d'.patch g f else d') k := by
  split
  · exact same_patch hk h f
  · exact h

theorem same_rotate {k : Text} (h : Same d d' k) : Same d (d'._rotateOwnGroupKey g) k :=
  (get_rotateOwnGroupKey d' g k).trans h

theorem row_of_ne (photoAccepted : Text → Bool) {k : Text} (hk : k ≠ signal.groupId) :
    Same d (d._groupNotification photoAccepted signal) k := by
  have hd : Same d d k := rfl
  rw [_groupNotification]
  split
  · rw [insertGroup]
    split
    · exact hd
    · split
      · exact hd
      · exact Table.get_put_of_ne hk
  · rw [mergeGroup]
    split
    · exact hd
    · exact same_if hk (same_if hk (same_patch hk hd _) _ _) _ _
  · exact hd
  · split
    · exact hd
    · split
      · rw [addMember]
        cases signal.targetMemberId with
        | none => exact same_patch hk hd _
        | some target =>
          have hclear : Same d (d.clear signal.groupId target) k := rfl
          exact same_patch hk hclear _
      · rw [removeMember]
        split
        · exact hd
        · dsimp only
          split
          · exact same_patch hk (same_if hk (same_patch hk hd _) _ _) _
          · refine same_rotate ?_
            exact same_if hk (same_patch hk hd _) _ _
      · rw [leaveGroup]
        split
        · exact hd
        · exact same_rotate (same_patch hk (same_patch hk hd _) _)
      · rw [updateAdmin]
        split
        · exact hd
        · split
          · exact hd
          · exact same_patch hk hd _
      · rw [updateProfile]
        repeat' split
        all_goals first | exact hd | exact same_patch hk hd _

end Device

open Device

def process (photoAccepted : Text → Bool) (d : Device) (signal : GroupNotificationSignal) : Option Device :=
  some (d._groupNotification photoAccepted signal)

/-- **Authority**: the row of a known conversation is changed by a control only if it is a group, and its sender an
effective admin and a member; or its sender leaves, which takes the sender and nobody else off the roster. -/
def Authorised (photoAccepted : Text → Bool) (d : Device) (signal : GroupNotificationSignal) : Prop :=
  ∀ g c, d.conversations.get g = some c →
    ∃ c', (d._groupNotification photoAccepted signal).conversations.get g = some c' ∧
      (c' = c ∨ g = signal.groupId ∧ c.isGroup = true ∧
        (signal.senderId ∈ c.effectiveAdmins ∧ signal.senderId ∈ c.members ∨
          signal.action = .LEAVE_GROUP ∧ c' =
            { c with groupMembers := c'.groupMembers, groupAdmins := c'.groupAdmins } ∧
            (∀ m, m ∈ c'.members ↔ m ∈ c.members ∧ m ≠ signal.senderId) ∧
            ∀ m, m ∈ c'.admins ↔ m ∈ c.admins ∧ m ≠ signal.senderId))

/-- Every stored admin is a member, and a conversation that is not a group has no members. -/
def Rostered (d : Device) : Prop :=
  ∀ g c, d.conversations.get g = some c → (∀ a ∈ c.admins.elems, a ∈ c.members) ∧
    (c.isGroup = false → c.members.elems = [])

/-- The condition on a control: the list it writes names the stored admins, but for the one it removes. -/
def NamesAdmins (d : Device) (signal : GroupNotificationSignal) : Prop :=
  ∀ c ∈ d.conversations.get signal.groupId, d.rewrites signal = true → ∀ a ∈ c.admins.elems,
    match signal.action with
    | .ADD_MEMBER => ∃ id ∈ d.listed signal, a ∈ Csv.pieces ',' id
    | .REMOVE_MEMBER => some a = signal.targetMemberId ∨ ∃ id ∈ signal.groupMembers, a ∈ Csv.pieces ',' id
    | _ => True

instance (d : Device) (signal : GroupNotificationSignal) : Decidable (NamesAdmins d signal) := by
  unfold NamesAdmins
  cases signal.action <;> infer_instance

section Authority

variable {d : Device} {signal : GroupNotificationSignal} {c c' : ConversationEntity} {photoAccepted : Text → Bool}

theorem mem_effectiveAdmins (hadmins : ∀ a ∈ c.admins.elems, a ∈ c.members) {a : Text} (h : a ∈ c.effectiveAdmins) :
    a ∈ c.members := by
  unfold ConversationEntity.effectiveAdmins at h
  split at h
  · rename_i first rest _ hmembers
    rw [LinkedSet.mem_ofList, List.mem_singleton] at h
    subst h
    show a ∈ c.members.elems
    rw [hmembers]
    exact List.mem_cons_self
  · exact hadmins a h

theorem mem_join_filter {text : Option Text} {x m : Text} :
    m ∈ _csv (some (join ((_csv text).elems.filter fun id => decide (id ≠ x)))) ↔ m ∈ _csv text ∧ m ≠ x := by
  refine Csv.mem_csv_join.trans ?_
  constructor
  · rintro ⟨id, hid, hm⟩
    obtain ⟨hid, hne⟩ := List.mem_filter.1 hid
    have hid : id ∈ _csv text := hid
    cases (Csv.mem_pieces_of_mem_csv hid).1 hm
    exact ⟨hid, of_decide_eq_true hne⟩
  · rintro ⟨hm, hne⟩
    exact ⟨m, List.mem_filter.2 ⟨hm, decide_eq_true hne⟩, (Csv.mem_pieces_of_mem_csv hm).2 rfl⟩

theorem admins_congr (h : c'.groupAdmins = c.groupAdmins) : c'.admins = c.admins := by
  rw [ConversationEntity.admins, h, ConversationEntity.admins]

theorem members_congr (h : c'.groupMembers = c.groupMembers) : c'.members = c.members := by
  rw [ConversationEntity.members, h, ConversationEntity.members]

theorem members_eq {ids : List Text} (h : c'.groupMembers = some (join ids)) {m : Text} :
    m ∈ c'.members ↔ ∃ id ∈ ids, m ∈ Csv.pieces ',' id := by
  rw [ConversationEntity.members, h]
  exact Csv.mem_csv_join

theorem admins_step (hstep : RowStep d signal c c') (hget : d.conversations.get signal.groupId = some c)
    (hadmins : ∀ a ∈ c.admins.elems, a ∈ c.members) (hnames : NamesAdmins d signal) :
    ∀ a ∈ c'.admins.elems, a ∈ c'.members := by
  cases hstep with
  | idle => exact hadmins
  | merge haction hadmin hgroup hmembers hstored =>
    rw [admins_congr hstored]
    intro a ha
    have hmem := hadmins a ha
    exact (members_eq hmembers).2 ⟨a, LinkedSet.mem_ofList.2 (List.mem_append_left _ hmem),
      (Csv.mem_pieces_of_mem_csv hmem).2 rfl⟩
  | add haction hgroup hadmin =>
    intro a ha
    have hrewrites : d.rewrites signal = true := by
      refine rewrites_add haction hget ?_
      rw [admits, hgroup, decide_eq_true hadmin, Bool.or_true, Bool.and_true]
    have hlisted := hnames c hget hrewrites a ha
    rw [haction] at hlisted
    exact (members_eq rfl).2 hlisted
  | remove target haction htarget hgroup hadmin _ hmembers hstored =>
    intro a ha
    have hrewrites : d.rewrites signal = true := by
      refine rewrites_remove haction hget ?_ htarget
      rw [admits, hgroup, decide_eq_true hadmin, Bool.or_true, Bool.and_true]
    have hold : a ∈ c.admins ∧ a ≠ target := by
      have ha : a ∈ c'.admins := ha
      rw [ConversationEntity.admins, hstored] at ha
      split at ha
      · exact mem_join_filter.1 ha
      · rename_i hnot
        exact ⟨ha, fun he => hnot (he ▸ ha)⟩
    have hlisted := hnames c hget hrewrites a hold.1
    rw [haction, htarget] at hlisted
    exact (members_eq hmembers).2 (hlisted.resolve_left fun he => hold.2 (Option.some.inj he))
  | leave haction hgroup hmember =>
    intro a ha
    obtain ⟨ha, hne⟩ := mem_join_filter.1 ha
    exact mem_join_filter.2 ⟨hadmins a ha, hne⟩
  | promote target haction htarget hgroup hadmin hmember =>
    intro a ha
    obtain ⟨id, hid, hpiece⟩ := Csv.mem_csv_join.1 ha
    have hid : id ∈ c.admins.insert target := hid
    rcases LinkedSet.mem_insert.1 hid with hid | rfl
    · cases (Csv.mem_pieces_of_mem_csv hid).1 hpiece
      exact hadmins a hid
    · cases (Csv.mem_pieces_of_mem_csv hmember).1 hpiece
      exact hmember
  | profile _ _ _ hmembers hstored =>
    rw [admins_congr hstored, members_congr hmembers]
    exact hadmins

theorem Rostered.effectiveAdmins_nil {g : Text} (hd : Rostered d) (hget : d.conversations.get g = some c)
    (hgroup : c.isGroup = false) (a : Text) : ¬ a ∈ c.effectiveAdmins := by
  intro ha
  have hmem : a ∈ c.members.elems := mem_effectiveAdmins (hd g c hget).1 ha
  rw [(hd g c hget).2 hgroup] at hmem
  cases hmem

theorem insertGroup_rostered {g : Text} (hd : Rostered d)
    (hget : (d.insertGroup photoAccepted signal).conversations.get g = some c) :
    (∀ a ∈ c.admins.elems, a ∈ c.members) ∧ (c.isGroup = false → c.members.elems = []) := by
  rw [insertGroup] at hget
  split at hget
  · exact hd g c hget
  · split at hget
    · exact hd g c hget
    · rename_i hlisted
      rw [not_or, not_not, not_not] at hlisted
      by_cases hg : g = signal.groupId
      · subst hg
        cases Table.get_put_self.symm.trans hget
        refine ⟨fun a ha => (members_eq rfl).2 ⟨signal.senderId, hlisted.2, ?_⟩, fun h => by cases h⟩
        exact Csv.mem_csv.1 ha
      · exact hd g c ((Table.get_put_of_ne hg).symm.trans hget)

theorem Rostered.process {d' : Device} (hd : Rostered d) (hnames : NamesAdmins d signal)
    (hp : process photoAccepted d signal = some d') : Rostered d' := by
  cases hp
  intro g c' hget
  by_cases hg : g = signal.groupId
  · subst hg
    cases hold : d.conversations.get signal.groupId with
    | none =>
      cases haction : signal.action with
      | CREATE =>
        have he : d._groupNotification photoAccepted signal = d.insertGroup photoAccepted signal := by
          rw [_groupNotification, haction, hold]
        rw [he] at hget
        exact insertGroup_rostered hd hget
      | _ =>
        have he : d._groupNotification photoAccepted signal = d := by rw [_groupNotification, haction, hold]
        rw [he] at hget
        cases hold.symm.trans hget
    | some c =>
      obtain ⟨c₁, hget₁, hstep⟩ := row_step photoAccepted hold
      cases hget₁.symm.trans hget
      refine ⟨admins_step hstep hold (hd _ c hold).1 hnames, fun hgroup => ?_⟩
      cases hstep with
      | idle => exact (hd _ _ hold).2 hgroup
      | merge haction hadmin hsame hmembers hstored =>
        exact absurd hadmin (hd.effectiveAdmins_nil hold (hsame.symm.trans hgroup) _)
      | add haction hyes hadmin => cases hyes.symm.trans hgroup
      | remove target haction htarget hyes hadmin hyes' => cases hyes'.symm.trans hgroup
      | leave haction hyes hmember => cases hyes.symm.trans hgroup
      | promote target haction htarget hyes hadmin hmember => cases hyes.symm.trans hgroup
      | profile hyes hadmin hyes' => cases hyes'.symm.trans hgroup
  · exact hd g c' ((row_of_ne photoAccepted hg).symm.trans hget)

theorem Rostered.authorised (hd : Rostered d) : Authorised photoAccepted d signal := by
  intro g c hget
  by_cases hg : g = signal.groupId
  · subst hg
    obtain ⟨c', hget', hstep⟩ := row_step photoAccepted hget
    refine ⟨c', hget', ?_⟩
    have hmember : ∀ {a}, a ∈ c.effectiveAdmins → a ∈ c.effectiveAdmins ∧ a ∈ c.members := fun ha =>
      ⟨ha, mem_effectiveAdmins (hd _ c hget).1 ha⟩
    cases hstep with
    | idle => exact .inl rfl
    | merge haction hadmin hsame hmembers hstored =>
      have hgroup : c.isGroup = true := by
        by_contra hno
        exact hd.effectiveAdmins_nil hget (by simpa using hno) _ hadmin
      exact .inr ⟨rfl, hgroup, .inl (hmember hadmin)⟩
    | add haction hgroup hadmin => exact .inr ⟨rfl, hgroup, .inl (hmember hadmin)⟩
    | remove target haction htarget hgroup hadmin => exact .inr ⟨rfl, hgroup, .inl (hmember hadmin)⟩
    | leave haction hgroup _ =>
      exact .inr ⟨rfl, hgroup, .inr ⟨haction, rfl, fun m => mem_join_filter, fun m => mem_join_filter⟩⟩
    | promote target haction htarget hgroup hadmin => exact .inr ⟨rfl, hgroup, .inl (hmember hadmin)⟩
    | profile hgroup hadmin => exact .inr ⟨rfl, hgroup, .inl (hmember hadmin)⟩
  · exact ⟨c, (row_of_ne photoAccepted hg).trans hget, .inl rfl⟩

end Authority

/-- **Only admins who are members change a group**, in every run of controls whose lists name the stored admins. -/
theorem authority_run {photoAccepted : Text → Bool} {d : Device} {signals : List GroupNotificationSignal}
    (hd : Rostered d) (hm : Meets (process photoAccepted) NamesAdmins d signals) :
    Meets (process photoAccepted) (Authorised photoAccepted) d signals := by
  induction signals generalizing d with
  | nil => trivial
  | cons signal rest ih => exact ⟨hd.authorised, ih (hd.process hm.1 rfl) (hm.tail rfl)⟩

theorem sampleDevice_rostered : Rostered sampleDevice := by
  intro g c hget
  have hget : (Table.empty.put "group".toList sampleGroup).get g = some c := hget
  rw [Table.get_put] at hget
  split at hget
  · cases hget
    exact ⟨by decide +kernel, nofun⟩
  · rw [Table.get_empty] at hget
    cases hget

def lawfulControls : List GroupNotificationSignal :=
  [control "ann" .REMOVE_MEMBER "carl" ["ann", "bob", "dave", "eve"], control "bob" .UPDATE_NAME "" [],
    control "eve" .LEAVE_GROUP "" []]

theorem authority_lawfulControls :
    Meets (process fun _ => true) (Authorised fun _ => true) sampleDevice lawfulControls :=
  authority_run sampleDevice_rostered (by decide +kernel)

def bobLeftOut : GroupNotificationSignal := control "ann" .REMOVE_MEMBER "carl" ["ann", "dave", "eve"]

def bobRenames : GroupNotificationSignal :=
  { control "bob" .UPDATE_NAME "" [] with groupName := "Bob's".toList }

/-- **An admin who is no longer a member renames the group.** -/
theorem outsider_renames : ∃ d, run (process fun _ => true) sampleDevice [bobLeftOut] = some d ∧
    ¬ "bob".toList ∈ d.roster "group".toList ∧ ¬ Authorised (fun _ => true) d bobRenames := by
  let d := sampleDevice._groupNotification (fun _ => true) bobLeftOut
  let view (c : ConversationEntity) : Text × Bool := (c.peerName, decide ("bob".toList ∈ c.members))
  let row (d : Device) := (d.conversations.get "group".toList).map view
  have hbefore : row d = some ("climbers".toList, false) := by decide +kernel
  have hafter : row (d._groupNotification (fun _ => true) bobRenames) =
    some ("Bob's".toList, false) := by decide +kernel
  refine ⟨d, rfl, by decide +kernel, fun h => ?_⟩
  obtain ⟨c, hc, hcrow⟩ := Option.map_eq_some_iff.1 hbefore
  obtain ⟨c', hc', hcase⟩ := h _ c hc
  have hrow' : view c' = ("Bob's".toList, false) :=
    Option.some.inj ((congrArg (Option.map view) hc').symm.trans hafter)
  obtain ⟨hname, hout⟩ := Prod.mk.inj hcrow
  rcases hcase with rfl | ⟨-, -, ⟨-, hmember⟩ | ⟨haction, -⟩⟩
  · exact absurd (hname.symm.trans (Prod.mk.inj hrow').1) (by decide)
  · exact of_decide_eq_false hout hmember
  · exact absurd haction (by decide)

end GroupControl
end SecureChat
