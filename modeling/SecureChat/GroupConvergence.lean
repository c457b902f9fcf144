import Mathlib
import SecureChat.GroupRoster
/-!
# GroupConvergence — two admins who change a group at the same time

An admin's operation computes a member list from a snapshot of its own roster, writes it, and sends it to the members
with what it has changed.  A device that processes the control writes that list over its own.  `never_converges` shows
what becomes of two concurrent changes: there is always a device that loses one of them.
-/
namespace SecureChat
namespace GroupControl

open Device

def _split (value : Option Text) : List Text := (value.map (Csv.pieces ',')).getD []

structure AdminState where
  userId : Text
  group : ConversationEntity
  members : List Text
  admins : List Text
deriving DecidableEq

def maximumMembers : ℕ := 256

inductive Change
  | addMembers (newMemberIds : List Text)
  | removeMember (memberId : Text)

namespace AdminState

variable (state : AdminState)

def additions (newMemberIds : List Text) : LinkedSet Text :=
  LinkedSet.ofList (newMemberIds.filter fun id => decide (id ≠ []) && !state.members.contains id)

def updated : Change → List Text
  | .addMembers ids => state.members ++ (state.additions ids).elems
  | .removeMember target => state.members.filter fun id => decide (id ≠ target)

def allows : Change → Bool
  | .addMembers ids =>
    decide ((state.additions ids).elems ≠ []) &&
      decide (state.members.length + (state.additions ids).card ≤ maximumMembers)
  | .removeMember target => decide (target ≠ state.userId) && state.members.contains target

end AdminState

def effective (storedAdmins members : List Text) : List Text :=
  match storedAdmins, members with
  | [], first :: _ => [first]
  | _, _ => storedAdmins

def Device._adminState (d : Device) (groupId : Text) : Option AdminState :=
  match d.userId, d.conversations.get groupId with
  | some userId, some group =>
    let members := _split group.groupMembers
    let admins := effective (_split group.groupAdmins) members
    if group.isGroup = false ∨ ¬ userId ∈ members ∨ ¬ userId ∈ admins then none
    else some ⟨userId, group, members, admins⟩
  | _, _ => none

def Device.snapshot (d : Device) (groupId : Text) (change : Change) : Option AdminState :=
  (d._adminState groupId).filter fun state => state.allows change

def AdminState.controls (state : AdminState) (groupId : Text) (change : Change) : List GroupNotificationSignal :=
  let signal (action : Action) (target : Text) : GroupNotificationSignal :=
    { senderId := state.userId
      groupId
      groupName := state.group.peerName
      action
      groupMembers := (LinkedSet.ofList ((state.updated change).filter fun id => decide (id ≠ []))).elems
      targetMemberId := some target
      description := none
      photo := none }
  match change with
  | .addMembers ids => (state.additions ids).elems.map (signal .ADD_MEMBER)
  | .removeMember target => [signal .REMOVE_MEMBER target]

abbrev Operating := Device × Option AdminState

def Operating.write (f : Device → AdminState → Device) (o : Operating) : Operating :=
  match o.2 with
  | none => o
  | some state => (f o.1 state, o.2)

/-- What follows once the roster is written: the removal records, the admins, the outbound session. -/
def laterSteps (groupId : Text) : Change → List (Operating → Operating)
  | .addMembers ids =>
    ids.map fun id => Operating.write fun d state => if id ∈ state.additions ids then d.clear groupId id else d
  | .removeMember target =>
    [Operating.write fun d state =>
        if target ∈ state.admins then d.updateGroupAdmins groupId (state.admins.filter fun id => decide (id ≠ target))
        else d,
      Operating.write fun d _ => d.record groupId target,
      Operating.write fun d _ => d.resetGroupSession groupId]

def ownSteps (groupId : Text) (change : Change) : List (Operating → Operating) :=
  (fun o => (o.1, o.1.snapshot groupId change)) ::
  Operating.write (fun d state => d.updateGroupMembers groupId (state.updated change)) ::
  laterSteps groupId change

/-- A control that is processed while an operation is under way. -/
def receives (photoAccepted : Text → Bool) (signal : GroupNotificationSignal) (o : Operating) : Operating :=
  (o.1._groupNotification photoAccepted signal, o.2)

inductive Interleaves {α : Type} : List α → List α → List α → Prop
  | nil : Interleaves [] [] []
  | left {x : α} {xs ys zs : List α} (h : Interleaves xs ys zs) : Interleaves (x :: xs) ys (x :: zs)
  | right {y : α} {xs ys zs : List α} (h : Interleaves xs ys zs) : Interleaves xs (y :: ys) (y :: zs)

def operate (steps : List (Operating → Operating)) (d : Device) : Device := (steps.foldl (fun o f => f o) (d, none)).1

def Change.Adds (state : AdminState) : Change → Text → Prop
  | .addMembers ids, id => id ∈ state.additions ids
  | .removeMember _, _ => False

def Change.Removes : Change → Text → Prop
  | .addMembers _, _ => False
  | .removeMember target, id => id = target

def Merged (roster : LinkedSet Text) (sa sb : AdminState) (ca cb : Change) (id : Text) : Prop :=
  (id ∈ roster ∨ ca.Adds sa id ∨ cb.Adds sb id) ∧ ¬ ca.Removes id ∧ ¬ cb.Removes id

/-- Whoever processes both controls, in whichever order, and each admin that processes the other's control before,
between or after the steps of its own operation, ends with both changes applied. -/
def Converges (photoAccepted : Text → Bool) (device : Text → Device) (groupId a b : Text) (sa sb : AdminState)
    (ca cb : Change) : Prop :=
  (∀ u, u ∈ (device a).roster groupId → u ≠ a → u ≠ b →
    ∀ order, Interleaves (sa.controls groupId ca) (sb.controls groupId cb) order →
      ∀ id, id ∈ (order.foldl (fun d signal => d._groupNotification photoAccepted signal) (device u)).roster groupId ↔
        Merged ((device a).roster groupId) sa sb ca cb id) ∧
  (∀ order, Interleaves (ownSteps groupId ca) ((sb.controls groupId cb).map (receives photoAccepted)) order →
    ∀ id, id ∈ (operate order (device a)).roster groupId ↔ Merged ((device a).roster groupId) sa sb ca cb id) ∧
  (∀ order, Interleaves (ownSteps groupId cb) ((sa.controls groupId ca).map (receives photoAccepted)) order →
    ∀ id, id ∈ (operate order (device b)).roster groupId ↔ Merged ((device a).roster groupId) sa sb ca cb id)

section

variable {photoAccepted : Text → Bool} {d d' : Device} {g id : Text} {group : ConversationEntity} {state : AdminState}
  {change : Change} {ids : List Text} {signals : List GroupNotificationSignal}

theorem mem_split {text : Option Text} : id ∈ _split text ↔ id ∈ _csv text := LinkedSet.mem_ofList.symm

theorem Merged.comm {roster : LinkedSet Text} {sa sb : AdminState} {ca cb : Change} :
    Merged roster sa sb ca cb id ↔ Merged roster sb sa cb ca id := by
  rw [Merged, Merged, or_comm (a := ca.Adds sa id), and_comm (a := ¬ ca.Removes id)]

theorem interleaves_append {α : Type} : ∀ xs ys : List α, Interleaves xs ys (xs ++ ys)
  | [], [] => .nil
  | [], y :: ys => .right (interleaves_append [] ys)
  | x :: xs, ys => .left (interleaves_append xs ys)

theorem adminState_members (hget : d.conversations.get g = some group) (h : d._adminState g = some state) :
    state.members = _split group.groupMembers := by
  rw [_adminState, hget] at h
  cases hu : d.userId with
  | none =>
    rw [hu] at h
    cases h
  | some userId =>
    rw [hu] at h
    dsimp only at h
    split at h
    · cases h
    · cases h
      rfl

theorem snapshot_spec (hget : d.conversations.get g = some group) (h : d.snapshot g change = some state) :
    state.members = _split group.groupMembers ∧ state.allows change = true := by
  obtain ⟨hstate, hallows⟩ := Option.filter_eq_some_iff.1 h
  exact ⟨adminState_members hget hstate, hallows⟩

theorem mem_members (hget : d.conversations.get g = some group) (h : d.snapshot g change = some state) :
    id ∈ state.members ↔ id ∈ d.roster g := by
  rw [(snapshot_spec hget h).1, roster_of_get hget]
  exact mem_split

theorem not_mem_of_mem_additions (h : id ∈ state.additions ids) : ¬ id ∈ state.members := by
  obtain ⟨-, hid⟩ := List.mem_filter.1 (LinkedSet.mem_ofList.1 h)
  intro hmem
  rw [List.contains_iff_mem.2 hmem] at hid
  exact absurd hid (by simp)

theorem foldl_keeps : ∀ (steps : List (Operating → Operating)) (o : Operating), (∀ f ∈ steps, ∀ o, Keeps o.1 (f o).1) →
    Keeps o.1 (steps.foldl (fun o f => f o) o).1
  | [], _, _ => .refl
  | f :: steps, o, hf =>
    (hf f List.mem_cons_self o).trans (foldl_keeps steps (f o) fun f' hf' => hf f' (List.mem_cons_of_mem f hf'))

theorem write_keeps {f : Device → AdminState → Device} (hf : ∀ d state, Keeps d (f d state)) (o : Operating) :
    Keeps o.1 (o.write f).1 := by
  rw [Operating.write]
  split
  · exact .refl
  · exact hf _ _

theorem ownSteps_writes (hget : d.conversations.get g = some group) (h : d.snapshot g change = some state) :
    Writes d (operate (ownSteps g change) d) g (state.updated change) := by
  have hwritten : Writes d (d.updateGroupMembers g (state.updated change)) g (state.updated change) :=
    updateGroupMembers_writes hget _
  have hsecond : Operating.write (fun d state => d.updateGroupMembers g (state.updated change))
    (d, d.snapshot g change) =
      (d.updateGroupMembers g (state.updated change), some state) := by rw [Operating.write, h]
  rw [operate, ownSteps, List.foldl_cons, List.foldl_cons, hsecond]
  refine hwritten.keeps (foldl_keeps _ (_, some state) fun f hf => ?_)
  cases change with
  | addMembers ids =>
    obtain ⟨id, -, rfl⟩ := List.mem_map.1 hf
    refine write_keeps fun d state => ?_
    split
    · exact fun _ => rfl
    · exact .refl
  | removeMember target =>
    simp only [laterSteps, List.mem_cons, List.not_mem_nil, or_false] at hf
    rcases hf with rfl | rfl | rfl
    · refine write_keeps fun d state => ?_
      split
      · exact patch_keeps fun _ => rfl
      · exact .refl
    · exact write_keeps fun _ _ _ => rfl
    · exact write_keeps fun _ _ _ => rfl

theorem foldl_receives : ∀ (signals : List GroupNotificationSignal) (o : Operating),
    (signals.map (receives photoAccepted)).foldl (fun o f => f o) o =
      (signals.foldl (fun d signal => d._groupNotification photoAccepted signal) o.1, o.2)
  | [], _ => rfl
  | signal :: signals, o => foldl_receives signals (receives photoAccepted signal o)

theorem adds_roster : ∀ (signals : List GroupNotificationSignal) (d : Device),
    (∀ signal ∈ signals, signal.action = .ADD_MEMBER ∧ signal.groupId = g ∧ signal.groupMembers = ids) →
    (signals.foldl (fun d signal => d._groupNotification photoAccepted signal) d).roster g = d.roster g ∨
      ∀ m, m ∈ (signals.foldl (fun d signal => d._groupNotification photoAccepted signal) d).roster g →
        ∃ id ∈ ids, m ∈ Csv.pieces ',' id
  | [], _, _ => .inl rfl
  | signal :: signals, d, h => by
    obtain ⟨haction, hgroup, hids⟩ := h signal List.mem_cons_self
    have hrest := adds_roster signals (d._groupNotification photoAccepted signal) fun s hs =>
      h s (List.mem_cons_of_mem signal hs)
    rw [List.foldl_cons]
    rcases hrest with hsame | hlisted
    · have hout := outcome d photoAccepted signal
      rw [hsame]
      cases hout with
      | idle hkeeps _ _ => exact .inl (hkeeps.roster g)
      | add group _ _ _ hw _ =>
        refine .inr fun m hm => ?_
        rw [hgroup] at hw
        obtain ⟨id, hid, hm⟩ := hw.mem_roster.1 hm
        exact ⟨id, hids ▸ (List.mem_filter.1 hid).1, hm⟩
      | create hother | merge _ hother | remove _ _ hother | leave _ hother =>
        rw [haction] at hother
        cases hother
    · exact .inr hlisted

theorem remove_roster {signal : GroupNotificationSignal} (haction : signal.action = .REMOVE_MEMBER) :
    (d._groupNotification photoAccepted signal).roster signal.groupId = d.roster signal.groupId ∨
      ∀ m, m ∈ (d._groupNotification photoAccepted signal).roster signal.groupId ↔
        ∃ id ∈ signal.groupMembers, m ∈ Csv.pieces ',' id := by
  have hout := outcome d photoAccepted signal
  cases hout with
  | idle hkeeps _ _ => exact .inl (hkeeps.roster signal.groupId)
  | remove _ _ _ _ _ _ hw _ => exact .inr fun m => hw.mem_roster
  | create hother | merge _ hother | add _ hother | leave _ hother =>
    rw [haction] at hother
    cases hother

theorem controls_add (state : AdminState) {newIds : List Text} {signal : GroupNotificationSignal}
    (h : signal ∈ state.controls g (.addMembers newIds)) : signal.action = .ADD_MEMBER ∧ signal.groupId = g ∧
      signal.groupMembers =
        (LinkedSet.ofList ((state.updated (.addMembers newIds)).filter fun id => decide (id ≠ []))).elems := by
  obtain ⟨target, -, rfl⟩ := List.mem_map.1 h
  exact ⟨rfl, rfl, rfl⟩

theorem mem_advertised {l : List Text} (h : id ∈ (LinkedSet.ofList (l.filter fun id => decide (id ≠ []))).elems) :
    id ∈ l := (List.mem_filter.1 (LinkedSet.mem_ofList.1 h)).1

theorem controls_remove (state : AdminState) (g target : Text) : ∃ signal : GroupNotificationSignal,
    state.controls g (.removeMember target) = [signal] ∧ signal.action = .REMOVE_MEMBER ∧ signal.groupId = g ∧
      signal.groupMembers =
        (LinkedSet.ofList ((state.updated (.removeMember target)).filter fun id => decide (id ≠ []))).elems :=
  ⟨_, rfl, rfl, rfl, rfl⟩

end

section Lost

variable {photoAccepted : Text → Bool} {d : Device} {g : Text} {group : ConversationEntity} {sm st : AdminState}

theorem operate_append (steps : List (Operating → Operating)) (signals : List GroupNotificationSignal) :
    operate (steps ++ signals.map (receives photoAccepted)) d =
      signals.foldl (fun d signal => d._groupNotification photoAccepted signal) (operate steps d) := by
  rw [operate, List.foldl_append, foldl_receives, operate]

theorem operate_remove (mine : Change) {target : Text} :
    (operate (ownSteps g mine ++ (st.controls g (.removeMember target)).map (receives photoAccepted)) d).roster g =
      (operate (ownSteps g mine) d).roster g ∨
    ∀ m, m ∈ (operate (ownSteps g mine ++ (st.controls g (.removeMember target)).map
      (receives photoAccepted)) d).roster g ↔
      ∃ id, (id ∈ st.updated (.removeMember target) ∧ id ≠ []) ∧ m ∈ Csv.pieces ',' id := by
  obtain ⟨signal, hcontrols, haction, rfl, hids⟩ := controls_remove st g target
  rw [operate_append, hcontrols, List.foldl_cons, List.foldl_nil]
  rcases remove_roster haction with hsame | hlisted
  · exact .inl hsame
  · refine .inr fun m => (hlisted m).trans (exists_congr fun id => and_congr_left fun _ => ?_)
    rw [hids]
    exact LinkedSet.mem_ofList.trans (List.mem_filter.trans (and_congr_right fun _ => decide_eq_true_iff))

theorem lost_add_add {mine theirs : List Text} (hget : d.conversations.get g = some group)
    (hmine : d.snapshot g (.addMembers mine) = some sm) (hmembers : ∀ id, id ∈ st.members ↔ id ∈ d.roster g)
    (hallows : st.allows (.addMembers theirs) = true)
    (hdisjoint : ∀ id, ¬ (id ∈ sm.additions mine ∧ id ∈ st.additions theirs)) :
    ¬ ∀ id, id ∈ (operate (ownSteps g (.addMembers mine) ++
        (st.controls g (.addMembers theirs)).map (receives photoAccepted)) d).roster g ↔
      Merged (d.roster g) sm st (.addMembers mine) (.addMembers theirs) id := by
  intro hfinal
  rw [operate_append] at hfinal
  obtain ⟨x, hx⟩ := List.exists_mem_of_ne_nil _
    (of_decide_eq_true (Bool.and_eq_true_iff.1 (snapshot_spec hget hmine).2).1)
  obtain ⟨y, hy⟩ := List.exists_mem_of_ne_nil _ (of_decide_eq_true (Bool.and_eq_true_iff.1 hallows).1)
  have hx : x ∈ sm.additions mine := hx
  have hy : y ∈ st.additions theirs := hy
  have holds : ∀ id, id ∈ d.roster g ∨ id ∈ sm.additions mine ∨ id ∈ st.additions theirs → _ :=
    fun id h => (hfinal id).2 ⟨h, False.elim, False.elim⟩
  rcases adds_roster (st.controls g (.addMembers theirs)) (operate (ownSteps g (.addMembers mine)) d)
    fun s hs => controls_add st hs with hsame | hlisted
  · -- the control came to nothing, so what it adds is missing
    have hin := holds y (.inr (.inr hy))
    rw [hsame] at hin
    obtain ⟨id, hid, hpiece⟩ := (ownSteps_writes hget hmine).mem_roster.1 hin
    rcases List.mem_append.1 hid with hold | hnew
    · have hclean := holds id (.inl ((mem_members hget hmine).1 hold))
      rw [(Csv.mem_pieces_of_mem_csv hclean).1 hpiece] at hy
      exact not_mem_of_mem_additions hy ((hmembers id).2 ((mem_members hget hmine).1 hold))
    · have hclean := holds id (.inr (.inl hnew))
      rw [(Csv.mem_pieces_of_mem_csv hclean).1 hpiece] at hy
      exact hdisjoint id ⟨hnew, hy⟩
  · -- the control's list is written, and it does not name what was added here
    obtain ⟨id, hid, hpiece⟩ := hlisted x (holds x (.inr (.inl hx)))
    rcases List.mem_append.1 (mem_advertised hid) with hold | hnew
    · have hclean := holds id (.inl ((hmembers id).1 hold))
      rw [(Csv.mem_pieces_of_mem_csv hclean).1 hpiece] at hx
      exact not_mem_of_mem_additions hx ((mem_members hget hmine).2 ((hmembers id).1 hold))
    · have hclean := holds id (.inr (.inr hnew))
      rw [(Csv.mem_pieces_of_mem_csv hclean).1 hpiece] at hx
      exact hdisjoint id ⟨hx, hnew⟩

theorem lost_add_remove {mine : List Text} {target : Text} (hget : d.conversations.get g = some group)
    (hmine : d.snapshot g (.addMembers mine) = some sm) (hmembers : ∀ id, id ∈ st.members ↔ id ∈ d.roster g)
    (hallows : st.allows (.removeMember target) = true) :
    ¬ ∀ id, id ∈ (operate (ownSteps g (.addMembers mine) ++
        (st.controls g (.removeMember target)).map (receives photoAccepted)) d).roster g ↔
      Merged (d.roster g) sm st (.addMembers mine) (.removeMember target) id := by
  intro hfinal
  obtain ⟨x, hx⟩ := List.exists_mem_of_ne_nil _
    (of_decide_eq_true (Bool.and_eq_true_iff.1 (snapshot_spec hget hmine).2).1)
  have hx : x ∈ sm.additions mine := hx
  have htarget : target ∈ st.members := List.contains_iff_mem.1 (Bool.and_eq_true_iff.1 hallows).2
  have htarget : target ∈ d.roster g := (hmembers target).1 htarget
  have hold : ∀ {id}, id ∈ d.roster g → ∀ m, m ∈ Csv.pieces ',' id ↔ m = id := fun h _ => Csv.mem_pieces_of_mem_csv h
  rcases operate_remove (d := d) (.addMembers mine) with hsame | hlisted
  · -- the control came to nothing, so its target is still there
    refine ((hfinal target).1 ?_).2.2 rfl
    rw [hsame]
    refine (ownSteps_writes hget hmine).mem_roster.2 ⟨target, List.mem_append_left _ ?_, (hold htarget _).2 rfl⟩
    exact (mem_members hget hmine).2 htarget
  · -- the control's list is written, and it does not name what was added here
    have hne : x ≠ target := fun he => not_mem_of_mem_additions hx ((mem_members hget hmine).2 (he ▸ htarget))
    obtain ⟨id, ⟨hid, -⟩, hpiece⟩ := (hlisted x).1 ((hfinal x).2 ⟨.inr (.inl hx), False.elim, hne⟩)
    have hid : id ∈ d.roster g := (hmembers id).1 (List.mem_filter.1 hid).1
    rw [(hold hid x).1 hpiece] at hx
    exact not_mem_of_mem_additions hx ((mem_members hget hmine).2 hid)

theorem lost_remove_remove {mine theirs : Text} (hget : d.conversations.get g = some group)
    (hmine : d.snapshot g (.removeMember mine) = some sm) (hmembers : ∀ id, id ∈ st.members ↔ id ∈ d.roster g)
    (hallows : st.allows (.removeMember theirs) = true) (hne : mine ≠ theirs) :
    ¬ ∀ id, id ∈ (operate (ownSteps g (.removeMember mine) ++
        (st.controls g (.removeMember theirs)).map (receives photoAccepted)) d).roster g ↔
      Merged (d.roster g) sm st (.removeMember mine) (.removeMember theirs) id := by
  intro hfinal
  have htheirs : theirs ∈ st.members := List.contains_iff_mem.1 (Bool.and_eq_true_iff.1 hallows).2
  have hmineIn : mine ∈ sm.members :=
    List.contains_iff_mem.1 (Bool.and_eq_true_iff.1 (snapshot_spec hget hmine).2).2
  have htheirs : theirs ∈ d.roster g := (hmembers theirs).1 htheirs
  have hmineIn : mine ∈ d.roster g := (mem_members hget hmine).1 hmineIn
  have hold : ∀ {id}, id ∈ d.roster g → ∀ m, m ∈ Csv.pieces ',' id ↔ m = id := fun h _ => Csv.mem_pieces_of_mem_csv h
  rcases operate_remove (d := d) (.removeMember mine) with hsame | hlisted
  · refine ((hfinal theirs).1 ?_).2.2 rfl
    rw [hsame]
    refine (ownSteps_writes hget hmine).mem_roster.2 ⟨theirs, List.mem_filter.2 ⟨?_, ?_⟩, (hold htheirs _).2 rfl⟩
    · exact (mem_members hget hmine).2 htheirs
    · exact decide_eq_true hne.symm
  · refine ((hfinal mine).1 ((hlisted mine).2 ⟨mine, ⟨List.mem_filter.2 ⟨?_, ?_⟩, ?_⟩, (hold hmineIn _).2 rfl⟩)).2.1 rfl
    · exact (hmembers mine).2 hmineIn
    · exact decide_eq_true hne
    · exact (Csv.clean_of_mem_csv hmineIn).1

end Lost

def Change.Touches (state : AdminState) (change : Change) (id : Text) : Prop := change.Adds state id ∨ change.Removes id

/-- **Concurrent changes never converge**: whatever the roster and the two changes, on some device and in some order one
of them is lost. -/
theorem never_converges {photoAccepted : Text → Bool} {device : Text → Device} {g a b : Text}
    {group : ConversationEntity}
    {ca cb : Change} {sa sb : AdminState} (hgroup : ∀ u, (device u).conversations.get g = some group)
    (ha : (device a).snapshot g ca = some sa) (hb : (device b).snapshot g cb = some sb)
    (hdisjoint : ∀ id, ¬ (ca.Touches sa id ∧ cb.Touches sb id)) :
    ¬ Converges photoAccepted device g a b sa sb ca cb := by
  rintro ⟨-, hatA, hatB⟩
  have hroster : ∀ u, (device u).roster g = group.members := fun u => roster_of_get (hgroup u)
  have hma : ∀ id, id ∈ sa.members ↔ id ∈ (device b).roster g := fun id => by
    rw [mem_members (hgroup a) ha, hroster, hroster]
  have hmb : ∀ id, id ∈ sb.members ↔ id ∈ (device a).roster g := fun id => by
    rw [mem_members (hgroup b) hb, hroster, hroster]
  have hA := hatA _ (interleaves_append _ _)
  cases ca with
  | addMembers mine =>
    cases cb with
    | addMembers theirs =>
      exact lost_add_add (hgroup a) ha hmb (snapshot_spec (hgroup b) hb).2
        (fun id h => hdisjoint id ⟨.inl h.1, .inl h.2⟩) hA
    | removeMember theirs => exact lost_add_remove (hgroup a) ha hmb (snapshot_spec (hgroup b) hb).2 hA
  | removeMember mine =>
    cases cb with
    | addMembers theirs =>
      have hB := hatB _ (interleaves_append _ _)
      rw [hroster a, ← hroster b] at hB
      exact lost_add_remove (hgroup b) hb hma (snapshot_spec (hgroup a) ha).2 fun id => (hB id).trans Merged.comm
    | removeMember theirs =>
      have hne : mine ≠ theirs := fun he => hdisjoint mine ⟨.inr rfl, .inr he⟩
      exact lost_remove_remove (hgroup a) ha hmb (snapshot_spec (hgroup b) hb).2 hne hA

def sampleDevices (u : Text) : Device := { sampleDevice with userId := some u }

def sampleAdmin (userId : String) : AdminState where
  userId := userId.toList
  group := sampleGroup
  members := _split sampleGroup.groupMembers
  admins := _split sampleGroup.groupAdmins

/-- Ann adds Fay while Bob adds Gus. -/
theorem concurrent_additions :
    ¬ Converges (fun _ => true) sampleDevices "group".toList "ann".toList "bob".toList (sampleAdmin "ann")
      (sampleAdmin "bob") (.addMembers ["fay".toList]) (.addMembers ["gus".toList]) := by
  refine never_converges (fun u => Table.get_put_self) (by decide +kernel) (by decide +kernel) ?_
  have hadditions : ∀ id ∈ ((sampleAdmin "ann").additions ["fay".toList]).elems,
      ¬ id ∈ (sampleAdmin "bob").additions ["gus".toList] := by decide +kernel
  rintro id ⟨hfay | hnone, hgus | hnone'⟩
  · exact hadditions id hfay hgus
  · exact hnone'
  · exact hnone
  · exact hnone

/-- Once Ann has added Fay and processes Bob's addition of Gus, Fay is no longer in her roster. -/
theorem addition_lost :
    let order := ownSteps "group".toList (.addMembers ["fay".toList]) ++
      ((sampleAdmin "bob").controls "group".toList (.addMembers ["gus".toList])).map (receives fun _ => true)
    let roster := (operate order (sampleDevices "ann".toList)).roster "group".toList
    "gus".toList ∈ roster ∧ ¬ "fay".toList ∈ roster := by
  decide +kernel

end GroupControl
end SecureChat
