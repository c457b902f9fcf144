import SecureChat.Csv
/-!
# GroupControl — what a device does with a group control

A group is a conversation whose members and admins are stored as comma-separated text.  Controls reach a device one at
a time; most of them write the member list they carry over the stored one.  `GroupRemovals` keeps, as keys of the
crypto state, who was removed or has left.  The outbound Megolm session of a group is created when a message is
encrypted and none is stored.
-/
namespace SecureChat
namespace GroupControl

abbrev Text := List Char

scoped instance lawfulText : LawfulBEq Text := inferInstance

structure ConversationEntity where
  peerName : Text
  isGroup : Bool
  groupMembers : Option Text
  groupAdmins : Option Text
  groupDescription : Option Text
  groupPhoto : Option Text
  isArchived : Bool
  isExportEnabled : Bool
  isReadOnly : Bool
deriving DecidableEq

inductive Action
  | CREATE | ADD_MEMBER | REMOVE_MEMBER | LEAVE_GROUP | UPDATE_ADMIN | UPDATE_NAME | UPDATE_DESCRIPTION | UPDATE_PHOTO
  | UPDATE_EXPORT_POLICY | SET_READ_ONLY | PREPARE_CALL | unknown
deriving DecidableEq

structure GroupNotificationSignal where
  senderId : Text
  groupId : Text
  groupName : Text
  action : Action
  groupMembers : List Text
  targetMemberId : Option Text
  description : Option Text
  photo : Option Text
deriving DecidableEq

def _csv (value : Option Text) : LinkedSet Text := Csv.csv ',' value

def join (ids : List Text) : Text := Csv.join ',' ids

namespace ConversationEntity

def members (c : ConversationEntity) : LinkedSet Text := _csv c.groupMembers

def admins (c : ConversationEntity) : LinkedSet Text := _csv c.groupAdmins

def effectiveAdmins (c : ConversationEntity) : LinkedSet Text :=
  match c.admins.elems, c.members.elems with
  | [], first :: _ => LinkedSet.ofList [first]
  | _, _ => c.admins

end ConversationEntity

/-- The outbound Megolm sessions, one at most for each group; a session id is drawn once. -/
structure GroupSessions where
  stored : Table Text ℕ
  next : ℕ
  fresh : ∀ groupId k, stored.get groupId = some k → k < next

namespace GroupSessions

variable {s : GroupSessions} {groupId : Text} {k : ℕ}

def empty : GroupSessions where
  stored := .empty
  next := 0
  fresh _ _ h := absurd h (by simp)

def delete (s : GroupSessions) (groupId : Text) : GroupSessions where
  stored := s.stored.remove groupId
  next := s.next
  fresh g k h := s.fresh g k (Table.get_filter_eq_some.1 h).1

def withGroupSession (s : GroupSessions) (groupId : Text) : GroupSessions × ℕ :=
  match s.stored.get groupId with
  | some k => (s, k)
  | none =>
    ({ stored := s.stored.put groupId s.next
       next := s.next + 1
       fresh g k h := by
        by_cases hg : g = groupId
        · subst hg
          cases Table.get_put_self.symm.trans h
          exact Nat.lt_succ_self _
        · exact Nat.lt_succ_of_lt (s.fresh g k ((Table.get_put_of_ne hg).symm.trans h)) }, s.next)

theorem withGroupSession_of_stored (h : s.stored.get groupId = some k) : (s.withGroupSession groupId).2 = k := by
  rw [withGroupSession, h]

theorem withGroupSession_delete_ne (h : s.stored.get groupId = some k) :
    ((s.delete groupId).withGroupSession groupId).2 ≠ k := by
  have hnone : (s.delete groupId).stored.get groupId = none := Table.get_remove_self
  rw [withGroupSession, hnone]
  exact Nat.ne_of_gt (s.fresh groupId k h)

end GroupSessions

structure Device where
  userId : Option Text
  conversations : Table Text ConversationEntity
  cryptoState : LinkedSet Text
  groupSessions : GroupSessions

def Action.privileged : Action → Bool
  | .ADD_MEMBER | .REMOVE_MEMBER | .UPDATE_ADMIN | .UPDATE_NAME | .UPDATE_DESCRIPTION | .UPDATE_PHOTO
  | .UPDATE_EXPORT_POLICY | .SET_READ_ONLY => true
  | .CREATE | .LEAVE_GROUP | .PREPARE_CALL | .unknown => false

def removalPrefix (groupId : Text) : Text := "group-removed:".toList ++ groupId ++ [':']

/-- The whitespace that `trim` takes off. -/
def isWhitespace (c : Char) : Bool :=
  decide (9 ≤ c.toNat ∧ c.toNat ≤ 13) || decide (0x2000 ≤ c.toNat ∧ c.toNat ≤ 0x200A) ||
    [0x20, 0x85, 0xA0, 0x1680, 0x2028, 0x2029, 0x202F, 0x205F, 0x3000, 0xFEFF].contains c.toNat

def trim (t : Text) : Text := ((t.dropWhile isWhitespace).reverse.dropWhile isWhitespace).reverse

def length (t : Text) : ℕ := t.foldl (fun n c => n + if 0x10000 ≤ c.toNat then 2 else 1) 0

def maxGroupDescriptionLength : ℕ := 512

def _groupDescription (value : Option Text) : Option Text :=
  let clean := trim (value.getD [])
  if clean = [] ∨ maxGroupDescriptionLength < length clean then none else some clean

def acceptedGroupPhotoBase64 (photoAccepted : Text → Bool) (value : Option Text) : Option Text :=
  value.filter fun photo => decide (photo ≠ []) && photoAccepted photo

def _strictBool (value : Option Text) : Option Bool :=
  match value.map fun t => t.map Char.toLower with
  | some t => if t = "true".toList then some true else if t = "false".toList then some false else none
  | none => none

namespace Device

variable (d : Device)

def record (groupId memberId : Text) : Device :=
  { d with cryptoState := d.cryptoState.insert (removalPrefix groupId ++ memberId) }

def clear (groupId memberId : Text) : Device :=
  { d with cryptoState := d.cryptoState.erase (removalPrefix groupId ++ memberId) }

def removedFrom (groupId : Text) : List Text :=
  (d.cryptoState.elems.filter fun key => (removalPrefix groupId).isPrefixOf key).map fun key =>
    key.drop (removalPrefix groupId).length

def patch (groupId : Text) (f : ConversationEntity → ConversationEntity) : Device :=
  match d.conversations.get groupId with
  | none => d
  | some current => { d with conversations := d.conversations.put groupId (f current) }

def updateGroupMembers (groupId : Text) (ids : List Text) : Device :=
  d.patch groupId fun c => { c with groupMembers := some (join ids) }

def updateGroupAdmins (groupId : Text) (ids : List Text) : Device :=
  d.patch groupId fun c => { c with groupAdmins := some (join ids) }

def resetGroupSession (groupId : Text) : Device := { d with groupSessions := d.groupSessions.delete groupId }

def _rotateOwnGroupKey (groupId : Text) : Device :=
  match d.userId with
  | none => d
  | some _ => d.resetGroupSession groupId

def insertGroup (photoAccepted : Text → Bool) (signal : GroupNotificationSignal) : Device :=
  match d.userId with
  | none => d
  | some me =>
    if ¬ me ∈ signal.groupMembers ∨ ¬ signal.senderId ∈ signal.groupMembers then d
    else
      { d with
        conversations := d.conversations.put signal.groupId
          { peerName := signal.groupName
            isGroup := true
            groupMembers := some (join signal.groupMembers)
            groupAdmins := some signal.senderId
            groupDescription := _groupDescription signal.description
            groupPhoto := acceptedGroupPhotoBase64 photoAccepted signal.photo
            isArchived := false
            isExportEnabled := false
            isReadOnly := false } }

def mergeGroup (photoAccepted : Text → Bool) (signal : GroupNotificationSignal) (group : ConversationEntity) : Device :=
  if ¬ signal.senderId ∈ group.effectiveAdmins then d
  else
    let removed := d.removedFrom signal.groupId
    let d := d.updateGroupMembers signal.groupId
      (LinkedSet.ofList (group.members.elems ++ signal.groupMembers.filter fun id => !removed.contains id)).elems
    let d :=
      if signal.description.isSome then
        d.patch signal.groupId fun c => { c with groupDescription := _groupDescription signal.description }
      else d
    if signal.photo.isSome then
      d.patch signal.groupId fun c => { c with groupPhoto := acceptedGroupPhotoBase64 photoAccepted signal.photo }
    else d

def addMember (signal : GroupNotificationSignal) : Device :=
  let d := match signal.targetMemberId with
    | some target => d.clear signal.groupId target
    | none => d
  let removed := d.removedFrom signal.groupId
  d.updateGroupMembers signal.groupId (signal.groupMembers.filter fun id => !removed.contains id)

def removeMember (signal : GroupNotificationSignal) (group : ConversationEntity) : Device :=
  match signal.targetMemberId with
  | none => d
  | some target =>
    let localUserId := d.userId
    let d := d.updateGroupMembers signal.groupId signal.groupMembers
    let d :=
      if target ∈ group.admins then
        d.updateGroupAdmins signal.groupId (group.admins.elems.filter fun id => decide (id ≠ target))
      else d
    if some target = localUserId then d.patch signal.groupId fun c => { c with isArchived := true }
    else (d.record signal.groupId target)._rotateOwnGroupKey signal.groupId

def leaveGroup (signal : GroupNotificationSignal) (group : ConversationEntity) : Device :=
  if ¬ signal.senderId ∈ group.members then d
  else
    let d := d.updateGroupMembers signal.groupId (group.members.elems.filter fun id => decide (id ≠ signal.senderId))
    let d := d.updateGroupAdmins signal.groupId (group.admins.elems.filter fun id => decide (id ≠ signal.senderId))
    (d.record signal.groupId signal.senderId)._rotateOwnGroupKey signal.groupId

def updateAdmin (signal : GroupNotificationSignal) (group : ConversationEntity) : Device :=
  match signal.targetMemberId with
  | none => d
  | some target =>
    if ¬ target ∈ group.members then d
    else d.updateGroupAdmins signal.groupId (group.admins.insert target).elems

def updateProfile (photoAccepted : Text → Bool) (signal : GroupNotificationSignal) : Device :=
  match signal.action with
  | .UPDATE_NAME =>
    if trim signal.groupName = [] then d
    else d.patch signal.groupId fun c => { c with peerName := trim signal.groupName }
  | .UPDATE_DESCRIPTION =>
    match signal.description with
    | none => d
    | some description =>
      if maxGroupDescriptionLength < length description then d
      else d.patch signal.groupId fun c => { c with groupDescription := _groupDescription (some description) }
  | .UPDATE_PHOTO =>
    match signal.photo with
    | none => d
    | some photo =>
      if photo ≠ [] ∧ photoAccepted photo = false then d
      else d.patch signal.groupId fun c => { c with groupPhoto := acceptedGroupPhotoBase64 photoAccepted (some photo) }
  | .UPDATE_EXPORT_POLICY =>
    match _strictBool signal.targetMemberId with
    | none => d
    | some enabled => d.patch signal.groupId fun c => { c with isExportEnabled := enabled }
  | .SET_READ_ONLY =>
    match _strictBool signal.targetMemberId with
    | none => d
    | some enabled => d.patch signal.groupId fun c => { c with isReadOnly := enabled }
  | _ => d

def admits (signal : GroupNotificationSignal) (group : ConversationEntity) : Bool :=
  group.isGroup && (!signal.action.privileged || decide (signal.senderId ∈ group.effectiveAdmins))

def _groupNotification (photoAccepted : Text → Bool) (signal : GroupNotificationSignal) : Device :=
  match signal.action, d.conversations.get signal.groupId with
  | .CREATE, none => d.insertGroup photoAccepted signal
  | .CREATE, some group => d.mergeGroup photoAccepted signal group
  | _, none => d
  | action, some group =>
    if admits signal group = false then d
    else
      match action with
      | .ADD_MEMBER => d.addMember signal
      | .REMOVE_MEMBER => d.removeMember signal group
      | .LEAVE_GROUP => d.leaveGroup signal group
      | .UPDATE_ADMIN => d.updateAdmin signal group
      | _ => d.updateProfile photoAccepted signal

end Device

end GroupControl
end SecureChat
