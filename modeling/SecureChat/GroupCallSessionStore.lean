import Mathlib.Data.Int.Order.Basic
import Mathlib.Data.Nat.Basic
import Mathlib.Order.Basic
import SecureChat.Collections
import SecureChat.Runs
/-!
# GroupCallSessionStore — the group calls a server holds in memory

A group has at most one call.  Every operation runs under one lock, so a run of the store is a list of operations with
the clock readings they made.  `Sound` is what the admission guards keep together; `store_run` carries it through every
run and says what a refused operation may still do: drop calls that are past their lifetime.
-/
namespace SecureChat
namespace GroupCall

def MAX_CALL_LIFETIME_MILLIS : ℤ := 4 * 60 * 60 * 1000
def MAX_ACTIVE_CALLS : ℕ := 1024
def MAX_CALLS_PER_USER : ℕ := 4
def MAX_PARTICIPANTS : ℕ := 8

structure ActiveCall where
  groupId : String
  callId : String
  coordinatorId : String
  callType : String
  participants : LinkedSet String
  invitedParticipants : LinkedSet String
  joinedParticipants : LinkedSet String
  requiresMediaE2ee : Bool
  instanceId : ℕ
  mediaE2eeParticipants : LinkedSet String
  startedAt : ℤ
deriving DecidableEq

inductive JoinResult
  | ADDED | ALREADY_PRESENT | CALL_NOT_FOUND | CAPACITY_REACHED
  | CONTEXT_MISMATCH | NOT_INVITED | ENCRYPTION_REQUIRED | SERVER_CAPACITY_REACHED | USER_CAPACITY_REACHED
deriving DecidableEq

structure Store where
  active : Table String ActiveCall
  nextInstance : ℕ

def init : Store := ⟨Table.empty, 0⟩

def ActiveCall.expired (call : ActiveCall) (now : ℤ) : Bool := decide (MAX_CALL_LIFETIME_MILLIS < now - call.startedAt)

namespace Store

variable (s : Store)

def callsFor (userId : String) : ℕ := s.active.countP fun c => decide (userId ∈ c.participants)

def save (groupId : String) (call : ActiveCall) : Store := { s with active := s.active.put groupId call }

def expireCall (call : ActiveCall) : Store :=
  match s.active.get call.groupId with
  | none => s
  | some current =>
    if current.instanceId ≠ call.instanceId ∨ current.startedAt ≠ call.startedAt then s
    else { s with active := s.active.remove call.groupId }

def purgeExpired (now : ℤ) : Store := (s.active.values.filter fun c => c.expired now).foldl expireCall s

def get (now : ℤ) (groupId : String) : Store × Option ActiveCall :=
  match s.active.get groupId with
  | none => (s, none)
  | some value => if value.expired now then (s.expireCall value, none) else (s, some value)

def openCall (groupId callId coordinatorId callType recipientId : String) (mediaE2ee : Bool)
    (startedAt : ℤ) : Store where
  active := s.active.put groupId
    { groupId, callId, coordinatorId, callType
      participants := LinkedSet.ofList [coordinatorId, recipientId]
      invitedParticipants := LinkedSet.ofList [coordinatorId, recipientId]
      joinedParticipants := LinkedSet.ofList [coordinatorId]
      requiresMediaE2ee := mediaE2ee
      instanceId := s.nextInstance
      mediaE2eeParticipants := if mediaE2ee then LinkedSet.ofList [coordinatorId] else LinkedSet.empty
      startedAt }
  nextInstance := s.nextInstance + 1

def admitInvitation (groupId callId coordinatorId callType recipientId : String) (mediaE2ee : Bool) (startedAt : ℤ) :
    Option ActiveCall → Store × JoinResult
  | none =>
    if MAX_ACTIVE_CALLS ≤ s.active.card then (s, .SERVER_CAPACITY_REACHED)
    else if MAX_CALLS_PER_USER ≤ s.callsFor coordinatorId ∨ MAX_CALLS_PER_USER ≤ s.callsFor recipientId then
      (s, .USER_CAPACITY_REACHED)
    else (s.openCall groupId callId coordinatorId callType recipientId mediaE2ee startedAt, .ADDED)
  | some current =>
    if current.callId ≠ callId ∨ current.coordinatorId ≠ coordinatorId ∨ current.callType ≠ callType ∨
        current.requiresMediaE2ee ≠ mediaE2ee then (s, .CONTEXT_MISMATCH)
    else if recipientId ∈ current.participants then (s, .ALREADY_PRESENT)
    else if MAX_PARTICIPANTS ≤ current.participants.card ∨
        (¬ recipientId ∈ current.invitedParticipants ∧ 256 ≤ current.invitedParticipants.card) then
          (s, .CAPACITY_REACHED)
    else if MAX_CALLS_PER_USER ≤ s.callsFor recipientId then (s, .USER_CAPACITY_REACHED)
    else
      (s.save groupId
        { current with
          participants := current.participants.insert recipientId
          invitedParticipants := current.invitedParticipants.insert recipientId }, .ADDED)

def invite (groupId callId coordinatorId callType recipientId : String) (mediaE2ee : Bool)
    (purgedAt readAt startedAt : ℤ) : Store × JoinResult :=
  let read := (s.purgeExpired purgedAt).get readAt groupId
  read.1.admitInvitation groupId callId coordinatorId callType recipientId mediaE2ee startedAt read.2

def join (groupId callId coordinatorId callType userId : String) (mediaE2ee : Bool) :
    Option ActiveCall → Store × JoinResult
  | none => (s, .CALL_NOT_FOUND)
  | some current =>
    if current.callId ≠ callId ∨ current.coordinatorId ≠ coordinatorId ∨ current.callType ≠ callType then
      (s, .CONTEXT_MISMATCH)
    else if ¬ userId ∈ current.invitedParticipants then (s, .NOT_INVITED)
    else if ¬ userId ∈ current.participants ∧ MAX_PARTICIPANTS ≤ current.participants.card then (s, .CAPACITY_REACHED)
    else if ¬ userId ∈ current.participants ∧ MAX_CALLS_PER_USER ≤ s.callsFor userId then (s, .USER_CAPACITY_REACHED)
    else if mediaE2ee = false ∧ current.requiresMediaE2ee = true then (s, .ENCRYPTION_REQUIRED)
    else
      (s.save groupId
        { current with
          participants := current.participants.insert userId
          joinedParticipants := current.joinedParticipants.insert userId
          mediaE2eeParticipants :=
            if mediaE2ee then current.mediaE2eeParticipants.insert userId
            else current.mediaE2eeParticipants.erase userId },
        if userId ∈ current.joinedParticipants then .ALREADY_PRESENT else .ADDED)

def confirmJoin (groupId callId coordinatorId callType userId : String) (mediaE2ee : Bool) (now : ℤ) :
    Store × JoinResult :=
  let read := s.get now groupId
  read.1.join groupId callId coordinatorId callType userId mediaE2ee read.2

def removeParticipant (groupId userId : String) (now : ℤ) : Store × Bool :=
  let read := s.get now groupId
  match read.2 with
  | none => (read.1, false)
  | some current =>
    if ¬ userId ∈ current.participants then (read.1, false)
    else
      (read.1.save groupId
        { current with
          participants := current.participants.erase userId
          joinedParticipants := current.joinedParticipants.erase userId
          mediaE2eeParticipants := current.mediaE2eeParticipants.erase userId }, true)

def transferCoordinator (groupId newCoordinatorId : String) (onlineFilter : String → Bool) (now : ℤ) :
    Store × Option (String × String) :=
  let read := s.get now groupId
  match read.2 with
  | none => (read.1, none)
  | some current =>
    if newCoordinatorId = current.coordinatorId then (read.1, none)
    else if ¬ newCoordinatorId ∈ current.joinedParticipants then (read.1, none)
    else if onlineFilter newCoordinatorId = false then (read.1, none)
    else
      (read.1.save groupId { current with coordinatorId := newCoordinatorId },
        some (current.coordinatorId, newCoordinatorId))

def endCall (groupId : String) (expectedInstanceId : Option ℕ) : Store :=
  match s.active.get groupId with
  | none => s
  | some current =>
    if expectedInstanceId.any fun expected => decide (current.instanceId ≠ expected) then s else s.expireCall current

end Store

inductive Op
  | invite (groupId callId coordinatorId callType recipientId : String) (mediaE2ee : Bool)
      (purgedAt readAt startedAt : ℤ)
  | confirmJoin (groupId callId coordinatorId callType userId : String) (mediaE2ee : Bool) (now : ℤ)
  | removeParticipant (groupId userId : String) (now : ℤ)
  | transferCoordinator (groupId newCoordinatorId : String) (onlineFilter : String → Bool) (now : ℤ)
  | endCall (groupId : String) (expectedInstanceId : Option ℕ)
  | purgeExpired (now : ℤ)

inductive Answer
  | join (r : JoinResult)
  | removed (b : Bool)
  | transferred (r : Option (String × String))
  | unit

def Op.run (s : Store) : Op → Store × Answer
  | .invite g c o t r e p n a => (s.invite g c o t r e p n a).map id .join
  | .confirmJoin g c o t u e n => (s.confirmJoin g c o t u e n).map id .join
  | .removeParticipant g u n => (s.removeParticipant g u n).map id .removed
  | .transferCoordinator g u online n => (s.transferCoordinator g u online n).map id .transferred
  | .endCall g expected => (s.endCall g expected, .unit)
  | .purgeExpired n => (s.purgeExpired n, .unit)

/-- Whether the operation is refused; `end` answers nothing, it refuses a group without a call of that instance. -/
def Op.refused (s : Store) (op : Op) : Bool :=
  match (op.run s).2 with
  | .join r => decide (r ≠ .ADDED ∧ r ≠ .ALREADY_PRESENT)
  | .removed b => !b
  | .transferred r => r.isNone
  | .unit =>
    match op with
    | .endCall g expected =>
      (s.active.get g).all fun current => expected.any fun e => decide (current.instanceId ≠ e)
    | _ => false

def Op.readings : Op → List ℤ
  | .invite _ _ _ _ _ _ p n _ => [p, n]
  | .confirmJoin _ _ _ _ _ _ n => [n]
  | .removeParticipant _ _ n => [n]
  | .transferCoordinator _ _ _ n => [n]
  | .endCall _ _ => []
  | .purgeExpired n => [n]

def step (s : Store) (op : Op) : Option Store := some (op.run s).1

/-- Calls past their lifetime at one of the readings may be gone, nothing else has changed. -/
structure Pruned (readings : List ℤ) (s s' : Store) : Prop where
  kept : ∀ g, s'.active.get g = s.active.get g ∨
    (s'.active.get g = none ∧ ∃ c, s.active.get g = some c ∧ ∃ now ∈ readings, c.expired now = true)
  countP : ∀ p, s'.active.countP p ≤ s.active.countP p

section Pruned

variable {readings : List ℤ} {s s' s'' : Store} {c : ActiveCall} {g : String} {now : ℤ}

theorem Pruned.refl : Pruned readings s s := ⟨fun _ => .inl rfl, fun _ => Nat.le_refl _⟩

theorem Pruned.trans (h : Pruned readings s s') (h' : Pruned readings s' s'') : Pruned readings s s'' where
  kept g := by
    rcases h'.kept g with he | ⟨hn, c, hc, hexp⟩
    · rw [he]
      exact h.kept g
    · rcases h.kept g with he | ⟨hn', hc'⟩
      · exact .inr ⟨hn, c, he ▸ hc, hexp⟩
      · exact .inr ⟨hn, hc'⟩
  countP p := (h'.countP p).trans (h.countP p)

theorem Pruned.get_some (h : Pruned readings s s') (hc : s'.active.get g = some c) : s.active.get g = some c := by
  rcases h.kept g with he | ⟨hn, -⟩
  · exact he ▸ hc
  · rw [hn] at hc
    cases hc

theorem expireCall_pruned (hnow : now ∈ readings) (hexp : c.expired now = true) :
    Pruned readings s (s.expireCall c) := by
  rw [Store.expireCall]
  split
  · exact .refl
  · rename_i current hget
    split
    · exact .refl
    · rename_i hsame
      have hstart : current.startedAt = c.startedAt := by
        by_contra hne
        exact hsame (.inr hne)
      refine ⟨fun g => ?_, fun p => Table.countP_filter_le⟩
      by_cases hg : g = c.groupId
      · subst hg
        refine .inr ⟨Table.get_remove_self, current, hget, now, hnow, ?_⟩
        rw [ActiveCall.expired, hstart]
        exact hexp
      · exact .inl (Table.get_remove_of_ne hg)

theorem foldl_expireCall_pruned (hnow : now ∈ readings) : ∀ (l : List ActiveCall) {s : Store},
    (∀ c ∈ l, c.expired now = true) → Pruned readings s (l.foldl Store.expireCall s)
  | [], _, _ => .refl
  | c :: l, _, h =>
    (expireCall_pruned hnow (h c List.mem_cons_self)).trans
      (foldl_expireCall_pruned hnow l fun c' hc' => h c' (List.mem_cons_of_mem c hc'))

theorem purgeExpired_pruned (hnow : now ∈ readings) : Pruned readings s (s.purgeExpired now) :=
  foldl_expireCall_pruned hnow _ fun _ hc => (List.mem_filter.1 hc).2

theorem get_pruned (hnow : now ∈ readings) : Pruned readings s (s.get now g).1 := by
  rw [Store.get]
  split
  · exact .refl
  · split
    · exact expireCall_pruned hnow ‹_›
    · exact .refl

/-- What `get` returns is in the store, and it has dropped nothing then. -/
theorem get_some (h : (s.get now g).2 = some c) : (s.get now g).1 = s ∧ s.active.get g = some c := by
  rw [Store.get] at h ⊢
  split at h
  · cases h
  · rename_i value hv
    split at h
    · cases h
    · rename_i hexp
      cases h
      rw [if_neg hexp]
      exact ⟨rfl, hv⟩

end Pruned

structure ActiveCall.Sound (c : ActiveCall) : Prop where
  joined : ∀ u ∈ c.joinedParticipants, u ∈ c.participants
  invited : ∀ u ∈ c.participants, u ∈ c.invitedParticipants
  media : ∀ u ∈ c.mediaE2eeParticipants, u ∈ c.participants
  encrypted : c.requiresMediaE2ee = true → ∀ u ∈ c.joinedParticipants, u ∈ c.mediaE2eeParticipants
  size : c.participants.card ≤ MAX_PARTICIPANTS

structure Store.Sound (s : Store) : Prop where
  calls : ∀ g c, s.active.get g = some c → c.Sound
  total : s.active.card ≤ MAX_ACTIVE_CALLS
  perUser : ∀ u, s.callsFor u ≤ MAX_CALLS_PER_USER

section Sound

variable {readings : List ℤ} {s s' : Store} {c c' : ActiveCall} {g : String} {now : ℤ} {r : JoinResult}

theorem Store.Sound.init : init.Sound where
  calls _ _ h := by cases h
  total := Nat.zero_le _
  perUser _ := Nat.zero_le _

theorem Store.Sound.shrink (h : s.Sound) (hget : ∀ g c, s'.active.get g = some c → s.active.get g = some c)
    (hcount : ∀ p, s'.active.countP p ≤ s.active.countP p) : s'.Sound where
  calls g c hc := h.calls g c (hget g c hc)
  total := by
    rw [Table.card_eq_countP]
    exact (hcount _).trans (s.active.card_eq_countP ▸ h.total)
  perUser u := (hcount _).trans (h.perUser u)

theorem Store.Sound.pruned (h : s.Sound) (hp : Pruned readings s s') : s'.Sound :=
  h.shrink (fun _ _ hc => hp.get_some hc) hp.countP

theorem Store.Sound.expireCall (h : s.Sound) (c : ActiveCall) : (s.expireCall c).Sound := by
  rw [Store.expireCall]
  split
  · exact h
  · split
    · exact h
    · exact h.shrink (fun _ _ hc => (Table.get_filter_eq_some.1 hc).1) fun _ => Table.countP_filter_le

theorem Store.Sound.put (h : s.Sound) (hc : c'.Sound) (hcard : (s.active.put g c').card ≤ MAX_ACTIVE_CALLS) {n : ℕ}
    (hu : ∀ u ∈ c'.participants,
      (∃ c, s.active.get g = some c ∧ u ∈ c.participants) ∨ s.callsFor u < MAX_CALLS_PER_USER) :
    (Store.mk (s.active.put g c') n).Sound where
  calls g' c hget := by
    by_cases hg : g' = g
    · subst hg
      cases Table.get_put_self.symm.trans hget
      exact hc
    · exact h.calls g' c (Table.get_put_of_ne hg ▸ hget)
  total := hcard
  perUser u := by
    by_cases hmem : u ∈ c'.participants
    · rcases hu u hmem with ⟨c, hget, hold⟩ | hlt
      · have hle : (s.active.put g c').countP (fun c => decide (u ∈ c.participants)) ≤ s.callsFor u :=
          Table.countP_put_le hget fun _ => decide_eq_true hold
        exact hle.trans (h.perUser u)
      · exact Table.countP_put_le_succ.trans hlt
    · have hfewer : (s.active.put g c').countP (fun c => decide (u ∈ c.participants)) ≤ s.callsFor u := by
        rw [Table.countP_put, if_neg (by simpa using hmem)]
        exact Table.countP_filter_le
      exact hfewer.trans (h.perUser u)

theorem Store.Sound.save (h : s.Sound) (hget : s.active.get g = some c) (hc : c'.Sound)
    (hu : ∀ u ∈ c'.participants, u ∈ c.participants ∨ s.callsFor u < MAX_CALLS_PER_USER) : (s.save g c').Sound :=
  h.put hc (Table.card_put_of_get hget ▸ h.total) fun u hmem => (hu u hmem).imp_left fun hold => ⟨c, hget, hold⟩

theorem ActiveCall.Sound.removed (h : c.Sound) (u : String) :
    ActiveCall.Sound
      { c with
        participants := c.participants.erase u
        joinedParticipants := c.joinedParticipants.erase u
        mediaE2eeParticipants := c.mediaE2eeParticipants.erase u } where
  joined v hv := LinkedSet.mem_erase.2 ((LinkedSet.mem_erase.1 hv).imp_left (h.joined v))
  invited v hv := h.invited v (LinkedSet.mem_erase.1 hv).1
  media v hv := LinkedSet.mem_erase.2 ((LinkedSet.mem_erase.1 hv).imp_left (h.media v))
  encrypted hr v hv := LinkedSet.mem_erase.2 ((LinkedSet.mem_erase.1 hv).imp_left (h.encrypted hr v))
  size := LinkedSet.card_erase_le.trans h.size

theorem ActiveCall.Sound.invitee (h : c.Sound) {u : String} (hsize : c.participants.card < MAX_PARTICIPANTS) :
    ActiveCall.Sound
      { c with participants := c.participants.insert u, invitedParticipants := c.invitedParticipants.insert u } where
  joined v hv := LinkedSet.mem_insert.2 (.inl (h.joined v hv))
  invited v hv := LinkedSet.mem_insert.2 ((LinkedSet.mem_insert.1 hv).imp_left (h.invited v))
  media v hv := LinkedSet.mem_insert.2 (.inl (h.media v hv))
  encrypted hr v hv := h.encrypted hr v hv
  size := LinkedSet.card_insert_le.trans hsize

theorem ActiveCall.Sound.joiner (h : c.Sound) {u : String} {e : Bool} (hinvited : u ∈ c.invitedParticipants)
    (hsize : u ∈ c.participants ∨ c.participants.card < MAX_PARTICIPANTS)
      (he : e = true ∨ c.requiresMediaE2ee = false) :
    ActiveCall.Sound
      { c with
        participants := c.participants.insert u
        joinedParticipants := c.joinedParticipants.insert u
        mediaE2eeParticipants := if e then c.mediaE2eeParticipants.insert u else c.mediaE2eeParticipants.erase u } where
  joined v hv := LinkedSet.mem_insert.2 ((LinkedSet.mem_insert.1 hv).imp_left (h.joined v))
  invited v hv := (LinkedSet.mem_insert.1 hv).elim (h.invited v) fun hvu => hvu ▸ hinvited
  media v hv := by
    cases e with
    | true => exact LinkedSet.mem_insert.2 ((LinkedSet.mem_insert.1 hv).imp_left (h.media v))
    | false => exact LinkedSet.mem_insert.2 (.inl (h.media v (LinkedSet.mem_erase.1 hv).1))
  encrypted hr v hv := by
    rcases he with rfl | hno
    · exact LinkedSet.mem_insert.2 ((LinkedSet.mem_insert.1 hv).imp_left (h.encrypted hr v))
    · exact absurd hr (by rw [hno]; decide)
  size := by
    rcases hsize with hmem | hlt
    · exact (LinkedSet.card_insert_of_mem hmem).le.trans h.size
    · exact LinkedSet.card_insert_le.trans hlt

theorem Store.Sound.openCall (h : s.Sound) {callId coordinatorId callType recipientId : String} {e : Bool}
    {startedAt : ℤ} (hcard : s.active.card < MAX_ACTIVE_CALLS)
      (hcoordinator : s.callsFor coordinatorId < MAX_CALLS_PER_USER)
    (hrecipient : s.callsFor recipientId < MAX_CALLS_PER_USER) :
    (s.openCall g callId coordinatorId callType recipientId e startedAt).Sound := by
  have hpair : ∀ u, u ∈ LinkedSet.ofList [coordinatorId, recipientId] ↔ u = coordinatorId ∨ u = recipientId := by
    intro u
    simp [LinkedSet.ofList]
  have hone : ∀ u, u ∈ LinkedSet.ofList [coordinatorId] ↔ u = coordinatorId := by
    intro u
    simp [LinkedSet.ofList]
  refine h.put ⟨fun u hu => (hpair u).2 (.inl ((hone u).1 hu)), fun _ hu => hu, fun u hu => ?_, fun hr u hu => ?_, ?_⟩
    (Table.card_put_le.trans hcard) fun u hu => .inr ?_
  · cases e with
    | true => exact (hpair u).2 (.inl ((hone u).1 hu))
    | false => exact absurd hu (LinkedSet.not_mem_empty u)
  · cases hr
    exact hu
  · have htwo : (LinkedSet.ofList [coordinatorId, recipientId]).card ≤ 2 :=
      LinkedSet.card_insert_le.trans (Nat.succ_le_succ LinkedSet.card_insert_le)
    exact htwo.trans (by decide)
  · rcases (hpair u).1 hu with rfl | rfl
    · exact hcoordinator
    · exact hrecipient

theorem admitInvitation_sound {current : Option ActiveCall}
    (callId coordinatorId callType recipientId : String) (e : Bool)
    (startedAt : ℤ) (hcurrent : ∀ c, current = some c → s.active.get g = some c) :
    (s.Sound → (s.admitInvitation g callId coordinatorId callType recipientId e startedAt current).1.Sound) ∧
    ((s.admitInvitation g callId coordinatorId callType recipientId e startedAt current).2 ≠ .ADDED →
      (s.admitInvitation g callId coordinatorId callType recipientId e startedAt current).1 = s) := by
  cases current with
  | none =>
    rw [Store.admitInvitation]
    split
    · exact ⟨id, fun _ => rfl⟩
    · rename_i hserver
      split
      · exact ⟨id, fun _ => rfl⟩
      · rename_i huser
        rw [not_or, not_le, not_le] at huser
        exact ⟨fun h => h.openCall (not_le.1 hserver) huser.1 huser.2, fun h => absurd rfl h⟩
  | some c =>
    rw [Store.admitInvitation]
    split
    · exact ⟨id, fun _ => rfl⟩
    · split
      · exact ⟨id, fun _ => rfl⟩
      · split
        · exact ⟨id, fun _ => rfl⟩
        · rename_i hcapacity
          split
          · exact ⟨id, fun _ => rfl⟩
          · rename_i hcalls
            refine ⟨fun h => ?_, fun h => absurd rfl h⟩
            have hsize : c.participants.card < MAX_PARTICIPANTS := not_le.1 fun hle => hcapacity (.inl hle)
            refine h.save (hcurrent c rfl) ((h.calls g c (hcurrent c rfl)).invitee hsize) fun u hu => ?_
            rcases LinkedSet.mem_insert.1 hu with hold | rfl
            · exact .inl hold
            · exact .inr (not_le.1 hcalls)

/-- What an operation does to any store: sound stores stay sound, and a refusal only drops calls past their lifetime. -/
structure Served (op : Op) (s : Store) : Prop where
  sound : s.Sound → (op.run s).1.Sound
  refused : op.refused s = true → Pruned op.readings s (op.run s).1

theorem Served.of_pruned {op : Op} (h : Pruned op.readings s (op.run s).1) : Served op s :=
  ⟨fun hs => hs.pruned h, fun _ => h⟩

theorem Served.of_accepted {op : Op} (h : op.refused s = false) (hs : s.Sound → (op.run s).1.Sound) : Served op s :=
  ⟨hs, fun hr => by rw [h] at hr; cases hr⟩

theorem invite_served (callId coordinatorId callType recipientId : String) (e : Bool) (p n a : ℤ) :
    Served (.invite g callId coordinatorId callType recipientId e p n a) s := by
  have hp : Pruned [p, n] s ((s.purgeExpired p).get n g).1 :=
    (purgeExpired_pruned List.mem_cons_self).trans (get_pruned (List.mem_cons_of_mem p List.mem_cons_self))
  have hadmit := admitInvitation_sound (s := ((s.purgeExpired p).get n g).1) callId coordinatorId callType
    recipientId e a
    fun c hc => by
      rw [(get_some hc).1]
      exact (get_some hc).2
  refine ⟨fun hs => hadmit.1 (hs.pruned hp), fun hr => ?_⟩
  have hne : (s.invite g callId coordinatorId callType recipientId e p n a).2 ≠ .ADDED := (of_decide_eq_true hr).1
  have heq : (s.invite g callId coordinatorId callType recipientId e p n a).1 = _ := hadmit.2 hne
  exact heq ▸ hp

/-- What a confirmation does with a call: it refuses and changes nothing, or every guard holds and the member joins. -/
theorem join_cases (s : Store) (g callId coordinatorId callType u : String) (e : Bool) (c : ActiveCall) :
    (∃ r, s.join g callId coordinatorId callType u e (some c) = (s, r) ∧ r ≠ .ADDED ∧ r ≠ .ALREADY_PRESENT) ∨
    (u ∈ c.invitedParticipants ∧ (u ∈ c.participants ∨ c.participants.card < MAX_PARTICIPANTS) ∧
      (u ∈ c.participants ∨ s.callsFor u < MAX_CALLS_PER_USER) ∧ (e = true ∨ c.requiresMediaE2ee = false) ∧
      s.join g callId coordinatorId callType u e (some c) =
        (s.save g
          { c with
            participants := c.participants.insert u
            joinedParticipants := c.joinedParticipants.insert u
            mediaE2eeParticipants :=
              if e then c.mediaE2eeParticipants.insert u else c.mediaE2eeParticipants.erase u },
          if u ∈ c.joinedParticipants then .ALREADY_PRESENT else .ADDED)) := by
  rw [Store.join]
  split
  · exact .inl ⟨_, rfl, nofun, nofun⟩
  · split
    · exact .inl ⟨_, rfl, nofun, nofun⟩
    · rename_i hinvited
      split
      · exact .inl ⟨_, rfl, nofun, nofun⟩
      · rename_i hcapacity
        split
        · exact .inl ⟨_, rfl, nofun, nofun⟩
        · rename_i hcalls
          split
          · exact .inl ⟨_, rfl, nofun, nofun⟩
          · rename_i hencryption
            refine .inr ⟨not_not.1 hinvited, ?_, ?_, ?_, rfl⟩
            · exact or_iff_not_imp_left.2 fun hnew => not_le.1 fun hle => hcapacity ⟨hnew, hle⟩
            · exact or_iff_not_imp_left.2 fun hnew => not_le.1 fun hle => hcalls ⟨hnew, hle⟩
            · cases e with
              | true => exact .inl rfl
              | false => exact .inr (Bool.eq_false_iff.2 fun hreq => hencryption ⟨rfl, hreq⟩)

theorem join_sound {current : Option ActiveCall} (callId coordinatorId callType u : String) (e : Bool)
    (hcurrent : ∀ c, current = some c → s.active.get g = some c) :
    (s.Sound → (s.join g callId coordinatorId callType u e current).1.Sound) ∧
    ((s.join g callId coordinatorId callType u e current).2 ≠ .ADDED ∧
      (s.join g callId coordinatorId callType u e current).2 ≠ .ALREADY_PRESENT →
        (s.join g callId coordinatorId callType u e current).1 = s) := by
  cases current with
  | none => exact ⟨id, fun _ => rfl⟩
  | some c =>
    rcases join_cases s g callId coordinatorId callType u e c with ⟨r, hj, -⟩ | ⟨hinvited, hsize, hcalls, he, hj⟩
    · rw [hj]
      exact ⟨id, fun _ => rfl⟩
    · rw [hj]
      refine ⟨fun h => ?_, fun hr => ?_⟩
      · refine h.save (hcurrent c rfl) ((h.calls g c (hcurrent c rfl)).joiner hinvited hsize he) fun v hv => ?_
        rcases LinkedSet.mem_insert.1 hv with hold | rfl
        · exact .inl hold
        · exact hcalls
      · by_cases hjoined : u ∈ c.joinedParticipants
        · exact absurd (if_pos hjoined) hr.2
        · exact absurd (if_neg hjoined) hr.1

theorem confirmJoin_served (callId coordinatorId callType u : String) (e : Bool) (now : ℤ) :
    Served (.confirmJoin g callId coordinatorId callType u e now) s := by
  have hp : Pruned [now] s (s.get now g).1 := get_pruned List.mem_cons_self
  have hjoin := join_sound (s := (s.get now g).1) callId coordinatorId callType u e fun c hc => by
    rw [(get_some hc).1]
    exact (get_some hc).2
  refine ⟨fun hs => hjoin.1 (hs.pruned hp), fun hr => ?_⟩
  have heq : (s.confirmJoin g callId coordinatorId callType u e now).1 = (s.get now g).1 :=
    hjoin.2 (of_decide_eq_true hr)
  exact heq ▸ hp

theorem removeParticipant_served (u : String) (now : ℤ) : Served (.removeParticipant g u now) s := by
  have hp : Pruned [now] s (s.get now g).1 := get_pruned List.mem_cons_self
  cases hread : (s.get now g).2 with
  | none =>
    refine .of_pruned ?_
    simp only [Op.run, Store.removeParticipant, hread]
    exact hp
  | some c =>
    obtain ⟨heq, hget⟩ := get_some hread
    by_cases hu : u ∈ c.participants
    · refine .of_accepted ?_ fun hs => ?_
      · simp [Op.refused, Op.run, Store.removeParticipant, hread, hu]
      · simp only [Op.run, Store.removeParticipant, hread, heq, if_neg (not_not.2 hu)]
        exact hs.save hget ((hs.calls g c hget).removed u) fun v hv => .inl (LinkedSet.mem_erase.1 hv).1
    · refine .of_pruned ?_
      simp only [Op.run, Store.removeParticipant, hread, if_pos hu]
      exact hp

theorem transferCoordinator_served (u : String) (online : String → Bool) (now : ℤ) :
    Served (.transferCoordinator g u online now) s := by
  have hp : Pruned [now] s (s.get now g).1 := get_pruned List.mem_cons_self
  cases hread : (s.get now g).2 with
  | none =>
    refine .of_pruned ?_
    simp only [Op.run, Store.transferCoordinator, hread]
    exact hp
  | some c =>
    obtain ⟨heq, hget⟩ := get_some hread
    by_cases hguards : u = c.coordinatorId ∨ ¬ u ∈ c.joinedParticipants ∨ online u = false
    · refine .of_pruned ?_
      have hsame : (s.transferCoordinator g u online now).1 = (s.get now g).1 := by
        simp only [Store.transferCoordinator, hread]
        rcases hguards with h | h | h
        · rw [if_pos h]
        · rw [if_pos h, ite_self]
        · rw [if_pos h, ite_self, ite_self]
      exact (congrArg (Pruned [now] s) hsame).mpr hp
    · obtain ⟨hne, hjoined, honline⟩ := not_or.1 hguards |>.imp_right not_or.1
      refine .of_accepted ?_ fun hs => ?_
      · simp [Op.refused, Op.run, Store.transferCoordinator, hread, hne, hjoined, honline]
      · simp only [Op.run, Store.transferCoordinator, hread, heq, if_neg hne, if_neg hjoined, if_neg honline]
        have hc := hs.calls g c hget
        exact hs.save hget ⟨hc.joined, hc.invited, hc.media, hc.encrypted, hc.size⟩ fun v hv => .inl hv

theorem endCall_served (expected : Option ℕ) : Served (.endCall g expected) s where
  sound h := by
    simp only [Op.run, Store.endCall]
    split
    · exact h
    · split
      · exact h
      · exact h.expireCall _
  refused h := by
    have hsame : s.endCall g expected = s := by
      simp only [Op.refused, Op.run] at h
      rw [Store.endCall]
      split
      · rfl
      · rename_i current hget
        rw [hget] at h
        exact if_pos h
    exact (congrArg (Pruned [] s) hsame).mpr .refl

theorem Op.served (s : Store) : ∀ op : Op, Served op s
  | .invite _ c o t r e p n a => invite_served c o t r e p n a
  | .confirmJoin _ c o t u e n => confirmJoin_served c o t u e n
  | .removeParticipant _ u n => removeParticipant_served u n
  | .transferCoordinator _ u online n => transferCoordinator_served u online n
  | .endCall _ expected => endCall_served expected
  | .purgeExpired _ => .of_pruned (purgeExpired_pruned List.mem_cons_self)

end Sound

/-- **The store's law**: in every reachable state each call is sound and the capacities hold, and an operation that is
refused there leaves every call as it is that has not passed its lifetime when the operation read the clock. -/
theorem store_run {ops : List Op} {s : Store} (hr : Runs.run step init ops = some s) :
    (∀ g c, s.active.get g = some c → c.Sound) ∧ s.active.card ≤ MAX_ACTIVE_CALLS ∧
    (∀ u, s.callsFor u ≤ MAX_CALLS_PER_USER) ∧
    ∀ op : Op, op.refused s = true → ∀ g, (op.run s).1.active.get g = s.active.get g ∨
      ((op.run s).1.active.get g = none ∧
        ∃ c, s.active.get g = some c ∧ ∃ now ∈ op.readings, MAX_CALL_LIFETIME_MILLIS < now - c.startedAt) := by
  have hs : s.Sound := Runs.run_invariant Store.Sound
    (fun s op _ h hs => by cases hs; exact (op.served s).sound h) .init hr
  refine ⟨hs.calls, hs.total, hs.perUser, fun op href g => ?_⟩
  rcases ((op.served s).refused href).kept g with he | ⟨hn, c, hc, now, hnow, hexp⟩
  · exact .inl he
  · exact .inr ⟨hn, c, hc, now, hnow, of_decide_eq_true hexp⟩

def sampleInvite : Op := .invite "group" "call" "ann" "VIDEO" "bob" true 0 0 0

/-- Bob's join without encrypted media. -/
def sampleRefusal (now : ℤ) : Op := .confirmJoin "group" "call" "ann" "VIDEO" "bob" false now

theorem store_sample :
    ∃ s, Runs.run step init [sampleInvite] = some s ∧ (sampleRefusal 1).refused s = true ∧
      ((sampleRefusal 1).run s).1.active.get "group" = s.active.get "group" := by
  have hex : ∃ s, Runs.run step init [sampleInvite] = some s ∧ ((sampleRefusal 1).refused s = true ∧
      ∃ c ∈ s.active.get "group", c.startedAt = 0) := Runs.exists_run _ _ _ (by decide +kernel)
  obtain ⟨s, hr, href, c, hget, hstart⟩ := hex
  refine ⟨s, hr, href, ((store_run hr).2.2.2 _ href "group").resolve_right fun ⟨_, c', hc, now, hnow, hlt⟩ => ?_⟩
  cases hc.symm.trans hget
  rw [List.mem_singleton.1 hnow, hstart] at hlt
  exact absurd hlt (by decide)

/-- A refused operation can change the store: it drops a call that is past its lifetime. -/
theorem refusal_expires :
    ∃ s, Runs.run step init [sampleInvite] = some s ∧ (sampleRefusal (MAX_CALL_LIFETIME_MILLIS + 1)).refused s = true ∧
      ((sampleRefusal (MAX_CALL_LIFETIME_MILLIS + 1)).run s).1 ≠ s := by
  have hex : ∃ s, Runs.run step init [sampleInvite] = some s ∧
      ((sampleRefusal (MAX_CALL_LIFETIME_MILLIS + 1)).refused s = true ∧
        ((sampleRefusal (MAX_CALL_LIFETIME_MILLIS + 1)).run s).1.active.card ≠ s.active.card) :=
    Runs.exists_run _ _ _ (by decide +kernel)
  obtain ⟨s, hr, href, hcard⟩ := hex
  exact ⟨s, hr, href, fun he => hcard (congrArg (fun s => s.active.card) he)⟩

end GroupCall
end SecureChat
