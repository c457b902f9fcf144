import SecureChat.GroupControl
import SecureChat.Runs
/-!
# GroupRoster — what group controls do to the stored roster

`outcome` says once what processing a control can do to the roster and to the outbound session.  From it follow when a
removed member stays out of the roster over every sequence of controls (`removal_run`) and when a member that leaves
the roster is shut out of the next message (`exclusion_iff`).
-/
namespace SecureChat
namespace GroupControl

open Runs

namespace Device

variable {d d' : Device} {g g' : Text} {signal : GroupNotificationSignal} {group : ConversationEntity}
  {photoAccepted : Text → Bool} {ids : List Text}

def storedMembers (d : Device) (g : Text) : Option (Option Text) := (d.conversations.get g).map (·.groupMembers)

def roster (d : Device) (g : Text) : LinkedSet Text := _csv (d.storedMembers g).join

def Keeps (d d' : Device) : Prop := ∀ g, d'.storedMembers g = d.storedMembers g

structure Writes (d d' : Device) (g : Text) (ids : List Text) : Prop where
  others : ∀ g', g' ≠ g → d'.storedMembers g' = d.storedMembers g'
  members : d'.storedMembers g = some (some (join ids))

theorem roster_of_get (h : d.conversations.get g = some group) : d.roster g = group.members := by
  rw [roster, storedMembers, h]
  rfl

theorem Keeps.refl : Keeps d d := fun _ => rfl

theorem Keeps.trans {d'' : Device} (h : Keeps d d') (h' : Keeps d' d'') : Keeps d d'' := fun g => (h' g).trans (h g)

theorem Keeps.roster (h : Keeps d d') (g : Text) : d'.roster g = d.roster g := by rw [Device.roster, h g, Device.roster]

theorem Writes.keeps {d'' : Device} (h : Writes d d' g ids) (h' : Keeps d' d'') : Writes d d'' g ids where
  others g' hne := (h' g').trans (h.others g' hne)
  members := (h' g).trans h.members

theorem Writes.roster_of_ne (h : Writes d d' g ids) (hne : g' ≠ g) : d'.roster g' = d.roster g' := by
  rw [roster, h.others g' hne, roster]

theorem Writes.mem_roster (h : Writes d d' g ids) {m : Text} :
    m ∈ d'.roster g ↔ ∃ id ∈ ids, m ∈ Csv.pieces ',' id := by
  rw [roster, h.members]
  exact Csv.mem_csv_join

theorem patch_get_self (f : ConversationEntity → ConversationEntity) :
    (d.patch g f).conversations.get g = (d.conversations.get g).map f := by
  rw [patch]
  cases h : d.conversations.get g with
  | none => exact h
  | some c => exact Table.get_put_self

theorem patch_get_of_ne (f : ConversationEntity → ConversationEntity) (hne : g' ≠ g) :
    (d.patch g f).conversations.get g' = d.conversations.get g' := by
  rw [patch]
  cases d.conversations.get g with
  | none => rfl
  | some c => exact Table.get_put_of_ne hne

theorem patch_rest (f : ConversationEntity → ConversationEntity) :
    (d.patch g f).groupSessions = d.groupSessions ∧ (d.patch g f).userId = d.userId ∧
      (d.patch g f).cryptoState = d.cryptoState := by
  rw [patch]
  cases d.conversations.get g <;> exact ⟨rfl, rfl, rfl⟩

theorem patch_keeps {f : ConversationEntity → ConversationEntity} (hf : ∀ c, (f c).groupMembers = c.groupMembers) :
    Keeps d (d.patch g f) := by
  intro g'
  by_cases hg : g' = g
  · subst hg
    rw [storedMembers, patch_get_self, Option.map_map, storedMembers]
    exact congrArg (fun f => Option.map f _) (funext hf)
  · rw [storedMembers, patch_get_of_ne f hg, storedMembers]

theorem patch_if_keeps (b : Bool) (g : Text) {f : ConversationEntity → ConversationEntity}
    (hf : ∀ c, (f c).groupMembers = c.groupMembers) :
    Keeps d (if b then d.patch g f else d) ∧ (if b then d.patch g f else d).groupSessions = d.groupSessions := by
  cases b with
  | false => exact ⟨.refl, rfl⟩
  | true => exact ⟨patch_keeps hf, (patch_rest f).1⟩

theorem updateGroupMembers_writes (hget : d.conversations.get g = some group) (ids : List Text) :
    Writes d (d.updateGroupMembers g ids) g ids where
  others g' hne := by rw [storedMembers, updateGroupMembers, patch_get_of_ne _ hne, storedMembers]
  members := by
    rw [storedMembers, updateGroupMembers, patch_get_self, hget]
    rfl

theorem mem_removedFrom {m : Text} : m ∈ d.removedFrom g ↔ removalPrefix g ++ m ∈ d.cryptoState := by
  rw [removedFrom, List.mem_map]
  constructor
  · rintro ⟨key, hkey, rfl⟩
    obtain ⟨hmem, hprefix⟩ := List.mem_filter.1 hkey
    obtain ⟨rest, rfl⟩ := List.isPrefixOf_iff_prefix.1 hprefix
    rw [List.drop_left]
    exact hmem
  · intro h
    exact ⟨_, List.mem_filter.2 ⟨h, List.isPrefixOf_iff_prefix.2 (List.prefix_append _ _)⟩, List.drop_left⟩

/-- Whether a control of a known group gets to a branch that writes the member list. -/
def rewrites (d : Device) (signal : GroupNotificationSignal) : Bool :=
  match d.conversations.get signal.groupId with
  | none => false
  | some group =>
    match signal.action with
    | .CREATE => decide (signal.senderId ∈ group.effectiveAdmins)
    | .ADD_MEMBER => admits signal group
    | .REMOVE_MEMBER => admits signal group && signal.targetMemberId.isSome
    | .LEAVE_GROUP => admits signal group && decide (signal.senderId ∈ group.members)
    | _ => false

def departs (d : Device) (signal : GroupNotificationSignal) : Option Text :=
  if d.rewrites signal = false then none
  else
    match signal.action with
    | .REMOVE_MEMBER => signal.targetMemberId
    | .LEAVE_GROUP => some signal.senderId
    | _ => none

def adds (d : Device) (signal : GroupNotificationSignal) : Option Text :=
  if d.rewrites signal = false then none
  else
    match signal.action with
    | .ADD_MEMBER => signal.targetMemberId
    | _ => none

def leavesOut (d : Device) (signal : GroupNotificationSignal) : List Text :=
  match signal.action, signal.targetMemberId with
  | .ADD_MEMBER, some target => (d.clear signal.groupId target).removedFrom signal.groupId
  | _, _ => d.removedFrom signal.groupId

def listed (d : Device) (signal : GroupNotificationSignal) : List Text :=
  signal.groupMembers.filter fun id => !(d.leavesOut signal).contains id

/-- The ids of a control that the device takes into the roster of a known group. -/
def incoming (d : Device) (signal : GroupNotificationSignal) : List Text :=
  if d.rewrites signal = false then []
  else
    match signal.action with
    | .CREATE | .ADD_MEMBER => d.listed signal
    | .REMOVE_MEMBER => signal.groupMembers
    | _ => []

def rotated (d : Device) (g : Text) : GroupSessions :=
  match d.userId with
  | none => d.groupSessions
  | some _ => d.groupSessions.delete g

theorem rewrites_create (haction : signal.action = .CREATE) (hget : d.conversations.get signal.groupId = some group)
    (hadmin : signal.senderId ∈ group.effectiveAdmins) : d.rewrites signal = true := by
  rw [rewrites, hget, haction]
  exact decide_eq_true hadmin

theorem rewrites_add (haction : signal.action = .ADD_MEMBER) (hget : d.conversations.get signal.groupId = some group)
    (hadmits : admits signal group = true) : d.rewrites signal = true := by
  rw [rewrites, hget, haction]
  exact hadmits

theorem rewrites_remove {target : Text} (haction : signal.action = .REMOVE_MEMBER)
    (hget : d.conversations.get signal.groupId = some group) (hadmits : admits signal group = true)
    (htarget : signal.targetMemberId = some target) : d.rewrites signal = true := by
  rw [rewrites, hget, haction, htarget]
  exact Bool.and_eq_true_iff.2 ⟨hadmits, rfl⟩

theorem rewrites_leave (haction : signal.action = .LEAVE_GROUP) (hget : d.conversations.get signal.groupId = some group)
    (hadmits : admits signal group = true) (hmember : signal.senderId ∈ group.members) : d.rewrites signal = true := by
  rw [rewrites, hget, haction]
  exact Bool.and_eq_true_iff.2 ⟨hadmits, decide_eq_true hmember⟩

inductive Outcome (d d' : Device) (signal : GroupNotificationSignal) : Prop
  | idle (hkeeps : Keeps d d') (hsessions : d'.groupSessions = d.groupSessions) (hrewrites : d.rewrites signal = false)
  | create (haction : signal.action = .CREATE) (hget : d.conversations.get signal.groupId = none)
      (hwrites : Writes d d' signal.groupId signal.groupMembers) (hsessions : d'.groupSessions = d.groupSessions)
  | merge (group : ConversationEntity) (haction : signal.action = .CREATE)
      (hget : d.conversations.get signal.groupId = some group) (hadmin : signal.senderId ∈ group.effectiveAdmins)
      (hwrites : Writes d d' signal.groupId (LinkedSet.ofList (group.members.elems ++ d.listed signal)).elems)
      (hsessions : d'.groupSessions = d.groupSessions)
  | add (group : ConversationEntity) (haction : signal.action = .ADD_MEMBER)
      (hget : d.conversations.get signal.groupId = some group) (hadmits : admits signal group = true)
      (hwrites : Writes d d' signal.groupId (d.listed signal)) (hsessions : d'.groupSessions = d.groupSessions)
  | remove (group : ConversationEntity) (target : Text) (haction : signal.action = .REMOVE_MEMBER)
      (hget : d.conversations.get signal.groupId = some group) (hadmits : admits signal group = true)
      (htarget : signal.targetMemberId = some target) (hwrites : Writes d d' signal.groupId signal.groupMembers)
      (hsessions : d'.groupSessions = if some target = d.userId then d.groupSessions else d.rotated signal.groupId)
  | leave (group : ConversationEntity) (haction : signal.action = .LEAVE_GROUP)
      (hget : d.conversations.get signal.groupId = some group) (hadmits : admits signal group = true)
      (hmember : signal.senderId ∈ group.members)
      (hwrites : Writes d d' signal.groupId (group.members.elems.filter fun id => decide (id ≠ signal.senderId)))
      (hsessions : d'.groupSessions = d.rotated signal.groupId)

section Outcome

theorem idle_of_refused (hget : ∀ group, d.conversations.get signal.groupId = some group →
    signal.action ≠ .CREATE ∧ admits signal group = false) : Outcome d d signal := by
  refine .idle .refl rfl ?_
  rw [rewrites]
  split
  · rfl
  · rename_i group hgroup
    obtain ⟨hcreate, hrefused⟩ := hget group hgroup
    split
    · exact absurd ‹_› hcreate
    · exact hrefused
    · rw [hrefused, Bool.false_and]
    · rw [hrefused, Bool.false_and]
    · rfl

theorem idle_of_keeps (hkeeps : Keeps d d') (hsessions : d'.groupSessions = d.groupSessions)
    (haction : signal.action ≠ .CREATE ∧ signal.action ≠ .ADD_MEMBER ∧ signal.action ≠ .REMOVE_MEMBER ∧
      signal.action ≠ .LEAVE_GROUP) : Outcome d d' signal := by
  obtain ⟨hcreate, hadd, hremove, hleave⟩ := haction
  refine .idle hkeeps hsessions ?_
  rw [rewrites]
  split
  · rfl
  · split
    · exact absurd ‹_› hcreate
    · exact absurd ‹_› hadd
    · exact absurd ‹_› hremove
    · exact absurd ‹_› hleave
    · rfl

theorem insertGroup_outcome (haction : signal.action = .CREATE) (hget : d.conversations.get signal.groupId = none) :
    Outcome d (d.insertGroup photoAccepted signal) signal := by
  have hidle : Outcome d d signal := idle_of_refused fun group h => by rw [hget] at h; cases h
  rw [insertGroup]
  split
  · exact hidle
  · split
    · exact hidle
    · refine .create haction hget ⟨fun g' hne => ?_, ?_⟩ rfl
      · exact congrArg (Option.map _) (Table.get_put_of_ne hne)
      · exact congrArg (Option.map _) Table.get_put_self

theorem mergeGroup_outcome (haction : signal.action = .CREATE)
    (hget : d.conversations.get signal.groupId = some group) :
    Outcome d (d.mergeGroup photoAccepted signal group) signal := by
  have hlisted : d.listed signal = signal.groupMembers.filter fun id =>
    !(d.removedFrom signal.groupId).contains id := by
    rw [listed, leavesOut, haction]
  by_cases hadmin : signal.senderId ∈ group.effectiveAdmins
  · let d₁ := d.updateGroupMembers signal.groupId (LinkedSet.ofList (group.members.elems ++ d.listed signal)).elems
    let d₂ := if signal.description.isSome then
        d₁.patch signal.groupId fun c => { c with groupDescription := _groupDescription signal.description }
      else d₁
    have h₁ : Writes d d₁ signal.groupId _ := updateGroupMembers_writes hget _
    have h₂ : Keeps d₁ d₂ ∧ d₂.groupSessions = d₁.groupSessions :=
      patch_if_keeps signal.description.isSome signal.groupId fun _ => rfl
    have hresult : d.mergeGroup photoAccepted signal group = if signal.photo.isSome then
        d₂.patch signal.groupId fun c => { c with groupPhoto := acceptedGroupPhotoBase64 photoAccepted signal.photo }
      else d₂ := by
      rw [mergeGroup, if_neg (not_not.2 hadmin)]
      simp only [d₂, d₁, hlisted]
    have h₃ := patch_if_keeps (d := d₂) signal.photo.isSome signal.groupId
      (f := fun c => { c with groupPhoto := acceptedGroupPhotoBase64 photoAccepted signal.photo }) fun _ => rfl
    rw [hresult]
    exact .merge group haction hget hadmin ((h₁.keeps h₂.1).keeps h₃.1) ((h₃.2.trans h₂.2).trans (patch_rest _).1)
  · rw [mergeGroup, if_pos hadmin]
    refine .idle .refl rfl ?_
    rw [rewrites, hget, haction]
    exact decide_eq_false hadmin

theorem addMember_outcome (haction : signal.action = .ADD_MEMBER)
    (hget : d.conversations.get signal.groupId = some group) (hadmits : admits signal group = true) :
    Outcome d (d.addMember signal) signal := by
  refine .add group haction hget hadmits ?_ ?_
  · rw [addMember, listed, leavesOut, haction]
    cases signal.targetMemberId with
    | none => exact updateGroupMembers_writes hget _
    | some target =>
      have hwrites := updateGroupMembers_writes (d := d.clear signal.groupId target) hget
        (signal.groupMembers.filter fun id =>
          !((d.clear signal.groupId target).removedFrom signal.groupId).contains id)
      exact ⟨hwrites.others, hwrites.members⟩
  · rw [addMember]
    cases signal.targetMemberId <;> exact (patch_rest _).1

theorem rotateOwnGroupKey_rest (d : Device) (g : Text) :
    (d._rotateOwnGroupKey g).conversations = d.conversations ∧ (d._rotateOwnGroupKey g).groupSessions =
      d.rotated g := by
  rw [_rotateOwnGroupKey, rotated]
  cases d.userId <;> exact ⟨rfl, rfl⟩

theorem removeMember_outcome {target : Text} (haction : signal.action = .REMOVE_MEMBER)
    (hget : d.conversations.get signal.groupId = some group) (hadmits : admits signal group = true)
    (htarget : signal.targetMemberId = some target) : Outcome d (d.removeMember signal group) signal := by
  let d₁ := d.updateGroupMembers signal.groupId signal.groupMembers
  let d₂ := if target ∈ group.admins then
      d₁.updateGroupAdmins signal.groupId (group.admins.elems.filter fun id => decide (id ≠ target))
    else d₁
  have h₁ : Writes d d₁ signal.groupId signal.groupMembers := updateGroupMembers_writes hget _
  have h₂ : Keeps d₁ d₂ ∧ d₂.groupSessions = d₁.groupSessions ∧ d₂.userId = d₁.userId := by
    by_cases hadmin : target ∈ group.admins
    · rw [show d₂ = d₁.updateGroupAdmins signal.groupId _ from if_pos hadmin]
      exact ⟨patch_keeps fun _ => rfl, (patch_rest _).1, (patch_rest _).2.1⟩
    · rw [show d₂ = d₁ from if_neg hadmin]
      exact ⟨.refl, rfl, rfl⟩
  have hsessions : d₂.groupSessions = d.groupSessions := h₂.2.1.trans (patch_rest _).1
  have huser : d₂.userId = d.userId := h₂.2.2.trans (patch_rest _).2.1
  have hresult : d.removeMember signal group = if some target = d.userId then
      d₂.patch signal.groupId fun c => { c with isArchived := true }
    else (d₂.record signal.groupId target)._rotateOwnGroupKey signal.groupId := by
    rw [removeMember, htarget]
  rw [hresult]
  by_cases hlocal : some target = d.userId
  · rw [if_pos hlocal]
    refine .remove group target haction hget hadmits htarget ((h₁.keeps h₂.1).keeps (patch_keeps fun _ => rfl)) ?_
    rw [if_pos hlocal]
    exact (patch_rest _).1.trans hsessions
  · rw [if_neg hlocal]
    obtain ⟨hconversations, hrotated⟩ := rotateOwnGroupKey_rest (d₂.record signal.groupId target) signal.groupId
    have hkeeps : Keeps d₂ ((d₂.record signal.groupId target)._rotateOwnGroupKey signal.groupId) := by
      intro g'
      rw [storedMembers, hconversations]
      rfl
    refine .remove group target haction hget hadmits htarget ((h₁.keeps h₂.1).keeps hkeeps) ?_
    rw [if_neg hlocal, hrotated, rotated, rotated]
    exact huser ▸ hsessions ▸ rfl

theorem leaveGroup_outcome (haction : signal.action = .LEAVE_GROUP)
    (hget : d.conversations.get signal.groupId = some group) (hadmits : admits signal group = true) :
    Outcome d (d.leaveGroup signal group) signal := by
  by_cases hmember : signal.senderId ∈ group.members
  · let ids := group.members.elems.filter fun id => decide (id ≠ signal.senderId)
    let d₁ := d.updateGroupMembers signal.groupId ids
    let d₂ := d₁.updateGroupAdmins signal.groupId (group.admins.elems.filter fun id => decide (id ≠ signal.senderId))
    have h₁ : Writes d d₁ signal.groupId ids := updateGroupMembers_writes hget ids
    have h₂ : Keeps d₁ d₂ := patch_keeps fun _ => rfl
    have hsessions : d₂.groupSessions = d.groupSessions := (patch_rest _).1.trans (patch_rest _).1
    have huser : d₂.userId = d.userId := (patch_rest _).2.1.trans (patch_rest _).2.1
    have hresult : d.leaveGroup signal group = (d₂.record signal.groupId signal.senderId)._rotateOwnGroupKey
      signal.groupId := by
      rw [leaveGroup, if_neg (not_not.2 hmember)]
    obtain ⟨hconversations, hrotated⟩ := rotateOwnGroupKey_rest (d₂.record signal.groupId signal.senderId)
      signal.groupId
    have h₃ : Keeps d₂ ((d₂.record signal.groupId signal.senderId)._rotateOwnGroupKey signal.groupId) := by
      intro g'
      rw [storedMembers, hconversations]
      rfl
    rw [hresult]
    refine .leave group haction hget hadmits hmember ((h₁.keeps h₂).keeps h₃) ?_
    rw [hrotated, rotated, rotated]
    exact huser ▸ hsessions ▸ rfl
  · rw [leaveGroup, if_pos hmember]
    refine .idle .refl rfl ?_
    rw [rewrites, hget, haction]
    exact Bool.and_eq_false_iff.2 (.inr (decide_eq_false hmember))

theorem updateProfile_keeps (d : Device) (photoAccepted : Text → Bool) (signal : GroupNotificationSignal) :
    Keeps d (d.updateProfile photoAccepted signal) ∧
      (d.updateProfile photoAccepted signal).groupSessions = d.groupSessions := by
  have hpatch : ∀ f : ConversationEntity → ConversationEntity, (∀ c, (f c).groupMembers = c.groupMembers) →
      Keeps d (d.patch signal.groupId f) ∧ (d.patch signal.groupId f).groupSessions = d.groupSessions :=
    fun f hf => ⟨patch_keeps hf, (patch_rest f).1⟩
  have hsame : Keeps d d ∧ d.groupSessions = d.groupSessions := ⟨.refl, rfl⟩
  rw [updateProfile]
  split
  · split
    · exact hsame
    · exact hpatch _ fun _ => rfl
  · split
    · exact hsame
    · split
      · exact hsame
      · exact hpatch _ fun _ => rfl
  · split
    · exact hsame
    · split
      · exact hsame
      · exact hpatch _ fun _ => rfl
  · split
    · exact hsame
    · exact hpatch _ fun _ => rfl
  · split
    · exact hsame
    · exact hpatch _ fun _ => rfl
  · exact hsame

theorem updateAdmin_keeps (d : Device) (signal : GroupNotificationSignal) (group : ConversationEntity) :
    Keeps d (d.updateAdmin signal group) ∧ (d.updateAdmin signal group).groupSessions = d.groupSessions := by
  rw [updateAdmin]
  split
  · exact ⟨.refl, rfl⟩
  · split
    · exact ⟨.refl, rfl⟩
    · exact ⟨patch_keeps fun _ => rfl, (patch_rest _).1⟩

theorem outcome (d : Device) (photoAccepted : Text → Bool) (signal : GroupNotificationSignal) :
    Outcome d (d._groupNotification photoAccepted signal) signal := by
  rw [_groupNotification]
  split
  · exact insertGroup_outcome ‹_› ‹_›
  · exact mergeGroup_outcome ‹_› ‹_›
  · rename_i hget _
    exact idle_of_refused fun group h => by rw [hget] at h; cases h
  · rename_i group hget hcreate
    split
    · rename_i hrefused
      refine idle_of_refused fun group' h => ?_
      cases hget.symm.trans h
      exact ⟨hcreate, hrefused⟩
    · rename_i hadmits
      rw [Bool.not_eq_false] at hadmits
      split
      · exact addMember_outcome ‹_› hget hadmits
      · rename_i haction
        cases htarget : signal.targetMemberId with
        | none =>
          rw [removeMember, htarget]
          refine .idle .refl rfl ?_
          rw [rewrites, hget, haction, htarget]
          exact Bool.and_false _
        | some target => exact removeMember_outcome haction hget hadmits htarget
      · exact leaveGroup_outcome ‹_› hget hadmits
      · rename_i haction
        exact idle_of_keeps (updateAdmin_keeps d signal group).1 (updateAdmin_keeps d signal group).2
          (by rw [haction]; decide)
      · rename_i hadd hremove hleave _
        exact idle_of_keeps (updateProfile_keeps d photoAccepted signal).1
          (updateProfile_keeps d photoAccepted signal).2
          ⟨hcreate, hadd, hremove, hleave⟩

end Outcome

end Device

open Device

/-- A device with, of every group, who has been removed or has left since it was last explicitly added. -/
structure Log where
  device : Device
  departed : List (Text × Text)

def Log.process (photoAccepted : Text → Bool) (l : Log) (signal : GroupNotificationSignal) : Option Log :=
  some
    { device := l.device._groupNotification photoAccepted signal
      departed :=
        ((l.device.departs signal).map fun m => (signal.groupId, m)).toList ++
          l.departed.filter fun x => decide (x.1 ≠ signal.groupId ∨ some x.2 ≠ l.device.adds signal) }

/-- The condition on a control: the ids the device takes from it name neither whom it removes nor anybody else who has
departed, except whom it explicitly adds. -/
def Log.Honours (l : Log) (signal : GroupNotificationSignal) : Prop :=
  ∀ id ∈ l.device.incoming signal, ∀ m ∈ Csv.pieces ',' id,
    some m ≠ l.device.departs signal ∧ ((signal.groupId, m) ∈ l.departed → some m = l.device.adds signal)

instance (l : Log) (signal : GroupNotificationSignal) : Decidable (l.Honours signal) :=
  inferInstanceAs (Decidable (∀ id ∈ l.device.incoming signal, ∀ m ∈ Csv.pieces ',' id,
    some m ≠ l.device.departs signal ∧ ((signal.groupId, m) ∈ l.departed → some m = l.device.adds signal)))

section Removal

variable {l l' : Log} {signal : GroupNotificationSignal} {photoAccepted : Text → Bool} {g m : Text}

def Log.Out (l : Log) : Prop :=
  ∀ g m, (g, m) ∈ l.departed → (l.device.storedMembers g).isSome = true ∧ ¬ m ∈ l.device.roster g

theorem mem_departed (h : l.process photoAccepted signal = some l') :
    (g, m) ∈ l'.departed ↔ (g = signal.groupId ∧ l.device.departs signal = some m) ∨
      ((g, m) ∈ l.departed ∧ (g ≠ signal.groupId ∨ some m ≠ l.device.adds signal)) := by
  cases h
  simp only [List.mem_append, List.mem_filter, decide_eq_true_eq, Option.mem_toList, Option.map_eq_some_iff,
    Prod.mk.injEq]
  refine or_congr ⟨?_, ?_⟩ Iff.rfl
  · rintro ⟨a, ha, rfl, rfl⟩
    exact ⟨rfl, ha⟩
  · rintro ⟨rfl, ha⟩
    exact ⟨m, ha, rfl, rfl⟩

/-- A control that writes the list of a known group: who had departed and is not explicitly added stays out, and who
departs now is out, if the list does not name them. -/
theorem Log.Out.writes {ids : List Text} (hl : l.Out) (hp : l.process photoAccepted signal = some l')
    (hw : Writes l.device l'.device signal.groupId ids)
    (hold : ∀ m, (signal.groupId, m) ∈ l.departed → some m ≠ l.device.adds signal →
      ¬ ∃ id ∈ ids, m ∈ Csv.pieces ',' id)
    (hnew : ∀ m, l.device.departs signal = some m → ¬ ∃ id ∈ ids, m ∈ Csv.pieces ',' id) : l'.Out := by
  intro g m hm
  by_cases hg : g = signal.groupId
  · subst hg
    refine ⟨by rw [hw.members]; rfl, fun hroster => ?_⟩
    have hnamed := hw.mem_roster.1 hroster
    rcases (mem_departed hp).1 hm with ⟨-, hdep⟩ | ⟨hdep, hadds⟩
    · exact hnew m hdep hnamed
    · exact hold m hdep (hadds.resolve_left fun h => h rfl) hnamed
  · rcases (mem_departed hp).1 hm with ⟨he, -⟩ | ⟨hdep, -⟩
    · exact absurd he hg
    · rw [hw.others g hg, hw.roster_of_ne hg]
      exact hl g m hdep

theorem Log.Out.process (hl : l.Out) (hh : l.Honours signal)
    (hp : l.process photoAccepted signal = some l') : l'.Out := by
  have hdevice : l'.device = l.device._groupNotification photoAccepted signal := by
    cases hp
    rfl
  have hout := outcome l.device photoAccepted signal
  rw [← hdevice] at hout
  cases hout with
  | idle hkeeps _ hrewrites =>
    intro g m hm
    rcases (mem_departed hp).1 hm with ⟨-, hdep⟩ | ⟨hdep, -⟩
    · rw [departs, if_pos hrewrites] at hdep
      cases hdep
    · rw [hkeeps g, hkeeps.roster g]
      exact hl g m hdep
  | create haction hget hwrites _ =>
    have hunknown : l.device.storedMembers signal.groupId = none := by rw [storedMembers, hget]; rfl
    have hrewrites : l.device.rewrites signal = false := by rw [rewrites, hget]
    refine hl.writes hp hwrites (fun m hdep _ => ?_) fun m hdep => ?_
    · have hknown := (hl _ m hdep).1
      rw [hunknown] at hknown
      cases hknown
    · rw [departs, if_pos hrewrites] at hdep
      cases hdep
  | merge group haction hget hadmin hwrites _ =>
    have hrewrites := ne_false_of_eq_true (rewrites_create haction hget hadmin)
    have hincoming : l.device.incoming signal = l.device.listed signal := by rw [incoming, if_neg hrewrites, haction]
    refine hl.writes hp hwrites (fun m hdep hadds => ?_) fun m hdep => ?_
    · rintro ⟨id, hid, hm⟩
      rcases List.mem_append.1 (LinkedSet.mem_ofList.1 hid) with hmember | hlisted
      · have hmember : id ∈ group.members := hmember
        rw [(Csv.mem_pieces_of_mem_csv hmember).1 hm] at hdep
        exact (hl _ id hdep).2 (roster_of_get hget ▸ hmember)
      · exact hadds ((hh id (hincoming ▸ hlisted) m hm).2 hdep)
    · rw [departs, if_neg hrewrites, haction] at hdep
      cases hdep
  | add group haction hget hadmits hwrites _ =>
    have hrewrites := ne_false_of_eq_true (rewrites_add haction hget hadmits)
    have hincoming : l.device.incoming signal = l.device.listed signal := by rw [incoming, if_neg hrewrites, haction]
    refine hl.writes hp hwrites (fun m hdep hadds => ?_) fun m hdep => ?_
    · rintro ⟨id, hid, hm⟩
      exact hadds ((hh id (hincoming ▸ hid) m hm).2 hdep)
    · rw [departs, if_neg hrewrites, haction] at hdep
      cases hdep
  | remove group target haction hget hadmits htarget hwrites _ =>
    have hrewrites := ne_false_of_eq_true (rewrites_remove haction hget hadmits htarget)
    have hincoming : l.device.incoming signal = signal.groupMembers := by rw [incoming, if_neg hrewrites, haction]
    refine hl.writes hp hwrites (fun m hdep hadds => ?_) fun m hdep => ?_
    · rintro ⟨id, hid, hm⟩
      exact hadds ((hh id (hincoming ▸ hid) m hm).2 hdep)
    · rintro ⟨id, hid, hm⟩
      exact (hh id (hincoming ▸ hid) m hm).1 hdep.symm
  | leave group haction hget hadmits hmember hwrites _ =>
    have hrewrites := ne_false_of_eq_true (rewrites_leave haction hget hadmits hmember)
    have hroster : l.device.roster signal.groupId = group.members := roster_of_get hget
    have hnamed : ∀ m, (∃ id ∈ group.members.elems.filter fun id => decide (id ≠ signal.senderId),
      m ∈ Csv.pieces ',' id) →
        m ∈ group.members ∧ m ≠ signal.senderId := by
      rintro m ⟨id, hid, hm⟩
      obtain ⟨hid, hne⟩ := List.mem_filter.1 hid
      have hid : id ∈ group.members := hid
      exact (Csv.mem_pieces_of_mem_csv hid).1 hm ▸ ⟨hid, of_decide_eq_true hne⟩
    refine hl.writes hp hwrites (fun m hdep _ hm => ?_) fun m hdep hm => ?_
    · exact (hl _ m hdep).2 (hroster ▸ (hnamed m hm).1)
    · rw [departs, if_neg hrewrites, haction] at hdep
      exact (hnamed m hm).2 (Option.some.inj hdep).symm

end Removal

/-- **Who has departed stays out**: from any device, over every sequence of controls that honour the departures before
them, whoever has been removed or has left and has not been explicitly added since is in no stored roster. -/
theorem removal_run {photoAccepted : Text → Bool} {d : Device} {l : Log} {signals : List GroupNotificationSignal}
    (hm : Meets (Log.process photoAccepted) Log.Honours ⟨d, []⟩ signals)
    (hr : run (Log.process photoAccepted) ⟨d, []⟩ signals = some l) {g m : Text} (hdep : (g, m) ∈ l.departed) :
    ¬ m ∈ l.device.roster g := by
  have hinit : Log.Out ⟨d, []⟩ := fun _ _ h => absurd h List.not_mem_nil
  have hout : l.Out := Meets.invariant Log.Out (fun _ _ _ hl hh hp => hl.process hh hp) hinit hm hr
  exact (hout g m hdep).2

def sampleGroup : ConversationEntity where
  peerName := "climbers".toList
  isGroup := true
  groupMembers := some "ann,bob,carl,dave,eve".toList
  groupAdmins := some "ann,bob".toList
  groupDescription := none
  groupPhoto := none
  isArchived := false
  isExportEnabled := false
  isReadOnly := false

def sampleDevice : Device where
  userId := some "dave".toList
  conversations := Table.empty.put "group".toList sampleGroup
  cryptoState := LinkedSet.empty
  groupSessions := (GroupSessions.empty.withGroupSession "group".toList).1

def control (senderId : String) (action : Action) (target : String) (members : List String) :
    GroupNotificationSignal where
  senderId := senderId.toList
  groupId := "group".toList
  groupName := "climbers".toList
  action := action
  groupMembers := members.map String.toList
  targetMemberId := some target.toList
  description := none
  photo := none

/-- Ann removes Carl, and Bob's CREATE still lists him. -/
theorem removal_sample :
    ∃ l, run (Log.process fun _ => true) ⟨sampleDevice, []⟩
        [control "ann" .REMOVE_MEMBER "carl" ["ann", "bob", "dave", "eve"],
          control "bob" .CREATE "" ["ann", "bob", "carl", "dave", "eve"]] = some l ∧
      ¬ "carl".toList ∈ l.device.roster "group".toList := by
  have hex : ∃ l, run (Log.process fun _ => true) ⟨sampleDevice, []⟩
      [control "ann" .REMOVE_MEMBER "carl" ["ann", "bob", "dave", "eve"],
        control "bob" .CREATE "" ["ann", "bob", "carl", "dave", "eve"]] = some l ∧
      ("group".toList, "carl".toList) ∈ l.departed := exists_run _ _ _ (by decide +kernel)
  obtain ⟨l, hr, hdep⟩ := hex
  exact ⟨l, hr, removal_run (by decide +kernel) hr hdep⟩

/-- Ann removes Carl; Bob, who has not seen it, removes Eve, and his list brings Carl back. -/
theorem removal_undone :
    ∃ l, run (Log.process fun _ => true) ⟨sampleDevice, []⟩
        [control "ann" .REMOVE_MEMBER "carl" ["ann", "bob", "dave", "eve"],
          control "bob" .REMOVE_MEMBER "eve" ["ann", "bob", "carl", "dave"]] = some l ∧
      ("group".toList, "carl".toList) ∈ l.departed ∧ "carl".toList ∈ l.device.roster "group".toList :=
  exists_run _ _ _ (by decide +kernel)

/-- Whoever leaves a stored roster does not hold the session of the group's next message. -/
def Excludes (photoAccepted : Text → Bool) (d : Device) (signal : GroupNotificationSignal) : Prop :=
  ∀ g m, m ∈ d.roster g → ¬ m ∈ (d._groupNotification photoAccepted signal).roster g →
    ∀ k, d.groupSessions.stored.get g = some k →
      ((d._groupNotification photoAccepted signal).groupSessions.withGroupSession g).2 ≠ k

/-- The condition on a control: who is added or removed here is named with everybody in the roster, under ids that are
not recorded as removed, and removals and departures of others reach a device that knows its user. -/
def Spares (d : Device) (signal : GroupNotificationSignal) : Prop :=
  d.groupSessions.stored.get signal.groupId = none ∨ d.rewrites signal = false ∨
    match signal.action with
    | .ADD_MEMBER => ∀ m ∈ (d.roster signal.groupId).elems, ∃ id ∈ d.listed signal, m ∈ Csv.pieces ',' id
    | .REMOVE_MEMBER =>
      (d.userId ≠ none ∧ signal.targetMemberId ≠ d.userId) ∨
        ∀ m ∈ (d.roster signal.groupId).elems, ∃ id ∈ signal.groupMembers, m ∈ Csv.pieces ',' id
    | .LEAVE_GROUP => d.userId ≠ none
    | _ => True

section Exclusion

variable {d d' : Device} {signal : GroupNotificationSignal} {g : Text} {ids : List Text} {k : ℕ}

theorem rotated_of_user (h : d.userId ≠ none) (g : Text) : d.rotated g = d.groupSessions.delete g := by
  obtain ⟨u, hu⟩ := Option.ne_none_iff_exists'.1 h
  rw [Device.rotated, hu]

theorem excludes_writes (hw : Writes d d' signal.groupId ids) (hsessions : d'.groupSessions = d.groupSessions)
    (hk : d.groupSessions.stored.get signal.groupId = some k) :
    (∀ g m, m ∈ d.roster g → ¬ m ∈ d'.roster g → ∀ k, d.groupSessions.stored.get g = some k →
      (d'.groupSessions.withGroupSession g).2 ≠ k) ↔
    ∀ m ∈ (d.roster signal.groupId).elems, ∃ id ∈ ids, m ∈ Csv.pieces ',' id := by
  constructor
  · intro h m hm
    by_contra hmissing
    refine h signal.groupId m hm (fun hin => hmissing (hw.mem_roster.1 hin)) k hk ?_
    rw [hsessions]
    exact GroupSessions.withGroupSession_of_stored hk
  · intro h g m hm hgone
    by_cases hg : g = signal.groupId
    · subst hg
      exact absurd (hw.mem_roster.2 (h m hm)) hgone
    · exact absurd (hw.roster_of_ne hg ▸ hm) hgone

theorem excludes_rotated (hw : Writes d d' signal.groupId ids)
    (hsessions : d'.groupSessions = d.groupSessions.delete signal.groupId) :
    ∀ g m, m ∈ d.roster g → ¬ m ∈ d'.roster g → ∀ k, d.groupSessions.stored.get g = some k →
      (d'.groupSessions.withGroupSession g).2 ≠ k := by
  intro g m hm hgone k hk
  by_cases hg : g = signal.groupId
  · subst hg
    rw [hsessions]
    exact GroupSessions.withGroupSession_delete_ne hk
  · exact absurd (hw.roster_of_ne hg ▸ hm) hgone

theorem excludes_without_session (hroster : ∀ g, g ≠ signal.groupId → d'.roster g = d.roster g)
    (hnone : d.groupSessions.stored.get signal.groupId = none) :
    ∀ g m, m ∈ d.roster g → ¬ m ∈ d'.roster g → ∀ k, d.groupSessions.stored.get g = some k →
      (d'.groupSessions.withGroupSession g).2 ≠ k := by
  intro g m hm hgone k hk
  by_cases hg : g = signal.groupId
  · subst hg
    rw [hnone] at hk
    cases hk
  · exact absurd (hroster g hg ▸ hm) hgone

theorem Device.Outcome.roster_of_ne (h : Outcome d d' signal) (hne : g ≠ signal.groupId) : d'.roster g =
    d.roster g := by
  cases h with
  | idle hkeeps _ _ => exact hkeeps.roster g
  | create _ _ hw _ => exact hw.roster_of_ne hne
  | merge _ _ _ _ hw _ => exact hw.roster_of_ne hne
  | add _ _ _ _ hw _ => exact hw.roster_of_ne hne
  | remove _ _ _ _ _ _ hw _ => exact hw.roster_of_ne hne
  | leave _ _ _ _ _ hw _ => exact hw.roster_of_ne hne

end Exclusion

/-- **When a member that leaves the roster is shut out**: exactly for the controls that meet the condition. -/
theorem exclusion_iff (photoAccepted : Text → Bool) (d : Device) (signal : GroupNotificationSignal) :
    Excludes photoAccepted d signal ↔ Spares d signal := by
  have hout := outcome d photoAccepted signal
  rw [Excludes]
  generalize d._groupNotification photoAccepted signal = d' at hout ⊢
  cases hsession : d.groupSessions.stored.get signal.groupId with
  | none =>
    exact iff_of_true (excludes_without_session (fun g hg => hout.roster_of_ne hg) hsession) (.inl hsession)
  | some k =>
    have hspares : Spares d signal ↔ d.rewrites signal = false ∨ _ := or_iff_right (by rw [hsession]; nofun)
    rw [hspares]
    cases hout with
    | idle hkeeps _ hrewrites =>
      refine iff_of_true (fun g m hm hgone => ?_) (.inl hrewrites)
      exact absurd (hkeeps.roster g ▸ hm) hgone
    | create haction hget hw _ =>
      refine iff_of_true (fun g m hm hgone => ?_) (.inl (by rw [rewrites, hget]))
      by_cases hg : g = signal.groupId
      · subst hg
        rw [roster, storedMembers, hget] at hm
        exact absurd hm (LinkedSet.not_mem_empty m)
      · exact absurd (hw.roster_of_ne hg ▸ hm) hgone
    | merge group haction hget hadmin hw hsessions =>
      refine iff_of_true ((excludes_writes hw hsessions hsession).2 fun m hm => ?_) (.inr (by rw [haction]; trivial))
      rw [roster_of_get hget] at hm
      have hm : m ∈ group.members := hm
      exact ⟨m, LinkedSet.mem_ofList.2 (List.mem_append_left _ hm), (Csv.mem_pieces_of_mem_csv hm).2 rfl⟩
    | add group haction hget hadmits hw hsessions =>
      rw [or_iff_right (ne_false_of_eq_true (rewrites_add haction hget hadmits)), haction]
      exact excludes_writes hw hsessions hsession
    | remove group target haction hget hadmits htarget hw hsessions =>
      rw [or_iff_right (ne_false_of_eq_true (rewrites_remove haction hget hadmits htarget)), haction]
      by_cases hlocal : some target = d.userId
      · rw [if_pos hlocal] at hsessions
        refine (excludes_writes hw hsessions hsession).trans (or_iff_right fun h => ?_).symm
        exact h.2 (htarget.trans hlocal)
      · rw [if_neg hlocal] at hsessions
        by_cases huser : d.userId = none
        · rw [Device.rotated, huser] at hsessions
          exact (excludes_writes hw hsessions hsession).trans (or_iff_right fun h => h.1 huser).symm
        · rw [rotated_of_user huser] at hsessions
          exact iff_of_true (excludes_rotated hw hsessions) (.inl ⟨huser, fun h => hlocal (htarget.symm.trans h)⟩)
    | leave group haction hget hadmits hmember hw hsessions =>
      rw [or_iff_right (ne_false_of_eq_true (rewrites_leave haction hget hadmits hmember)), haction]
      by_cases huser : d.userId = none
      · rw [Device.rotated, huser] at hsessions
        refine iff_of_false (fun h => ?_) fun h => h huser
        obtain ⟨id, hid, hm⟩ := (excludes_writes hw hsessions hsession).1 h signal.senderId
          (roster_of_get hget ▸ hmember)
        obtain ⟨hid, hne⟩ := List.mem_filter.1 hid
        have hid : id ∈ group.members := hid
        exact of_decide_eq_true hne ((Csv.mem_pieces_of_mem_csv hid).1 hm).symm
      · rw [rotated_of_user huser] at hsessions
        exact iff_of_true (excludes_rotated hw hsessions) huser

/-- Bob adds Fay with a list that does not name Carl: Carl leaves the roster and the session stays. -/
theorem exclusion_missed :
    let signal := control "bob" .ADD_MEMBER "fay" ["ann", "bob", "dave", "eve", "fay"]
    let d' := sampleDevice._groupNotification (fun _ => true) signal
    "carl".toList ∈ sampleDevice.roster "group".toList ∧ ¬ "carl".toList ∈ d'.roster "group".toList ∧
      sampleDevice.groupSessions.stored.get "group".toList = some 0 ∧
      (d'.groupSessions.withGroupSession "group".toList).2 = 0 := by
  decide +kernel

end GroupControl
end SecureChat
