import SecureChat.GroupCallDeparture
/-!
# GroupCallHandover — when a surviving group call has a coordinator

The invariant behind the hand-over: every stored call has two members and a joined coordinator, or some handler in
flight is about to put that right.  Each operation keeps it under the condition `Handler.safe`; once all handlers have
finished nobody is left to put anything right, so the calls are in order (`handover_run`).
-/
namespace SecureChat
namespace GroupCall

open Runs

def Route.rest : Route → List ActiveCall
  | .hangup => []
  | .disconnect rest => rest

def Handler.snapshots : Handler → List ActiveCall
  | .scanning _ _ calls => calls
  | .removing _ active route => active :: route.rest
  | .reading _ active route => active :: route.rest
  | .ending _ active route => active :: route.rest
  | .transferring _ active _ route => active :: route.rest
  | _ => []

structure Inv (s : Store) (hs : List Handler) : Prop where
  keyed : ∀ g c, s.active.get g = some c → c.groupId = g
  same : ∀ h ∈ hs, ∀ a ∈ h.snapshots, ∀ c, s.active.get a.groupId = some c → c.instanceId = a.instanceId
  sized : ∀ g c, s.active.get g = some c → Sized c hs
  led : ∀ g c, s.active.get g = some c → Led c hs

section Attending

variable {c c' : ActiveCall} {h h' : Handler} {hs hs' o : List Handler} {u : String}

theorem Sized.mono (hc : Sized c hs) (hsub : ∀ h ∈ hs, h.closes c → h ∈ hs') : Sized c hs' :=
  hc.imp_right fun ⟨h, hh, hcl⟩ => ⟨h, hsub h hh hcl, hcl⟩

theorem Led.mono (hc : Led c hs) (hsub : ∀ h ∈ hs, h.closes c ∨ h.hands c → h ∈ hs') : Led c hs' :=
  hc.imp_right fun ⟨h, hh, hcl⟩ => ⟨h, hsub h hh hcl, hcl⟩

theorem Sized.weaken (hc : Sized c o) : Sized c (h :: o) := hc.mono fun _ hx _ => List.mem_cons_of_mem h hx

theorem Led.weaken (hc : Led c o) : Led c (h :: o) := hc.mono fun _ hx _ => List.mem_cons_of_mem h hx

theorem Sized.others (hc : Sized c (h :: o)) (hh : ¬ h.closes c) : Sized c o :=
  hc.mono fun _ hx hcl => (List.mem_cons.1 hx).resolve_left fun he => hh (he ▸ hcl)

theorem Led.others (hc : Led c (h :: o)) (hh : ¬ h.closes c ∧ ¬ h.hands c) : Led c o :=
  hc.mono fun _ hx hcl => (List.mem_cons.1 hx).resolve_left fun he => (he ▸ hcl).elim hh.1 hh.2

theorem closes_congr (hg : c'.groupId = c.groupId) (hp : c'.participants = c.participants) (hcl : h.closes c) :
    h.closes c' := by
  cases h with
  | ending u active route => exact Eq.trans (b := c.groupId) hcl hg.symm
  | reading u active route => exact ⟨hcl.1.trans hg.symm, hp ▸ hcl.2⟩
  | _ => exact hcl.elim

theorem Sized.joinedBy {e : Bool} (hc : Sized c hs) : Sized (c.joinedBy u e) hs := by
  by_cases hmany : 2 ≤ (c.joinedBy u e).participants.card
  · exact .inl hmany
  · have hfew : (c.joinedBy u e).participants.card ≤ 1 := Nat.le_of_lt_succ (not_le.1 hmany)
    rcases hc with htwo | ⟨h, hh, hcl⟩
    · exact absurd (htwo.trans LinkedSet.le_card_insert) hmany
    · refine .inr ⟨h, hh, ?_⟩
      cases h with
      | ending v active route => exact hcl
      | reading v active route => exact ⟨hcl.1, LinkedSet.card_erase_le.trans hfew⟩
      | _ => exact hcl.elim

theorem Route.next_snapshots (route : Route) : (route.next u).snapshots ⊆ route.rest := by
  cases route with
  | hangup => exact List.nil_subset _
  | disconnect rest =>
    cases rest with
    | nil => exact List.nil_subset _
    | cons a as => exact List.Subset.refl _

end Attending

/-- Where the calls of a store come from: those of other groups were there, that of the group has become what it is. -/
def Becomes (s s' : Store) (g : String) (R : ActiveCall → ActiveCall → Prop) : Prop :=
  ∀ g' c', s'.active.get g' = some c' →
    (g' ≠ g ∧ s.active.get g' = some c') ∨ (g' = g ∧ ∃ c, s.active.get g = some c ∧ R c c')

section Becomes

variable {s : Store} {g u : String} {now : ℤ}

theorem becomes_save {c c' : ActiveCall} {R : ActiveCall → ActiveCall → Prop} (hget : s.active.get g = some c)
    (hR : R c c') : Becomes s (s.save g c') g R := by
  intro g' d hd
  by_cases hg : g' = g
  · subst hg
    cases Table.get_put_self.symm.trans hd
    exact .inr ⟨rfl, c, hget, hR⟩
  · exact .inl ⟨hg, (Table.get_put_of_ne hg).symm.trans hd⟩

theorem becomes_self {R : ActiveCall → ActiveCall → Prop} (hR : ∀ c, s.active.get g = some c → R c c) :
    Becomes s s g R := by
  intro g' d hd
  by_cases hg : g' = g
  · exact .inr ⟨hg, d, hg ▸ hd, hR d (hg ▸ hd)⟩
  · exact .inl ⟨hg, hd⟩

theorem becomes_expireCall {c : ActiveCall} {R : ActiveCall → ActiveCall → Prop} (hget : s.active.get g = some c)
    (hg : c.groupId = g) : Becomes s (s.expireCall c) g R := by
  intro g' d hd
  have hrem : s.expireCall c = { s with active := s.active.remove g } := by
    rw [Store.expireCall, hg, hget]
    exact if_neg (by simp)
  rw [hrem] at hd
  by_cases hg' : g' = g
  · rw [hg'] at hd
    cases Table.get_remove_self.symm.trans hd
  · exact .inl ⟨hg', (Table.get_remove_of_ne hg').symm.trans hd⟩

variable (hkeyed : ∀ g c, s.active.get g = some c → c.groupId = g)
include hkeyed

theorem get_becomes : Becomes s (s.get now g).1 g fun c c' => (s.get now g).2 = some c ∧ c' = c := by
  cases hget : s.active.get g with
  | none =>
    simp only [Store.get, hget]
    exact becomes_self fun c hc => by rw [hget] at hc; cases hc
  | some c =>
    by_cases hexp : c.expired now = true
    · simp only [Store.get, hget, if_pos hexp]
      exact becomes_expireCall hget (hkeyed g c hget)
    · simp only [Store.get, hget, if_neg hexp]
      exact becomes_self fun d hd => ⟨hget.symm.trans hd, rfl⟩

theorem removeParticipant_becomes : Becomes s (s.removeParticipant g u now).1 g fun c c' =>
    (s.get now g).2 = some c ∧ (c' = c ∧ ¬ u ∈ c.participants ∨ c' = c.without u ∧ u ∈ c.participants) := by
  have hread : Becomes s (s.get now g).1 g fun c c' => (s.get now g).2 = some c ∧ c' = c := get_becomes hkeyed
  cases hget : (s.get now g).2 with
  | none =>
    simp only [Store.removeParticipant, hget]
    intro g' d hd
    refine (hread g' d hd).imp_right ?_
    rintro ⟨-, c, -, hno, -⟩
    cases hget.symm.trans hno
  | some c =>
    obtain ⟨heq, hc⟩ := get_some hget
    by_cases hu : u ∈ c.participants
    · simp only [Store.removeParticipant, hget, heq, if_neg (not_not.2 hu)]
      exact becomes_save hc ⟨rfl, .inr ⟨rfl, hu⟩⟩
    · simp only [Store.removeParticipant, hget, heq, if_pos hu]
      exact becomes_self fun d hd => by cases hc.symm.trans hd; exact ⟨rfl, .inl ⟨rfl, hu⟩⟩

theorem transferCoordinator_becomes {w : String} {online : String → Bool} :
    Becomes s (s.transferCoordinator g w online now).1 g fun c c' => (s.get now g).2 = some c ∧
      (c' = c ∧ (w = c.coordinatorId ∨ ¬ w ∈ c.joinedParticipants ∨ online w = false) ∨
        c' = { c with coordinatorId := w } ∧ w ∈ c.joinedParticipants) := by
  have hread : Becomes s (s.get now g).1 g fun c c' => (s.get now g).2 = some c ∧ c' = c := get_becomes hkeyed
  cases hget : (s.get now g).2 with
  | none =>
    simp only [Store.transferCoordinator, hget]
    intro g' d hd
    refine (hread g' d hd).imp_right ?_
    rintro ⟨-, c, -, hno, -⟩
    cases hget.symm.trans hno
  | some c =>
    obtain ⟨heq, hc⟩ := get_some hget
    simp only [Store.transferCoordinator, hget, heq]
    split
    · rename_i hw
      exact becomes_self fun d hd => by cases hc.symm.trans hd; exact ⟨rfl, .inl ⟨rfl, .inl hw⟩⟩
    · split
      · rename_i hw
        exact becomes_self fun d hd => by cases hc.symm.trans hd; exact ⟨rfl, .inl ⟨rfl, .inr (.inl hw)⟩⟩
      · rename_i hjoined
        split
        · rename_i hw
          exact becomes_self fun d hd => by cases hc.symm.trans hd; exact ⟨rfl, .inl ⟨rfl, .inr (.inr hw)⟩⟩
        · exact becomes_save hc ⟨rfl, .inr ⟨rfl, not_not.1 hjoined⟩⟩

theorem endCall_becomes {expected : ℕ} :
    Becomes s (s.endCall g (some expected)) g fun c c' => c' = c ∧ c.instanceId ≠ expected := by
  cases hget : s.active.get g with
  | none =>
    simp only [Store.endCall, hget]
    exact becomes_self fun c hc => by rw [hget] at hc; cases hc
  | some c =>
    by_cases hid : c.instanceId = expected
    · simp only [Store.endCall, hget, Option.any_some, hid, ne_eq, not_true_eq_false, decide_false, Bool.false_eq_true,
        if_false]
      exact becomes_expireCall hget (hkeyed g c hget)
    · simp only [Store.endCall, hget, Option.any_some, ne_eq, hid, not_false_eq_true, decide_true, if_true]
      exact becomes_self fun d hd => by cases hget.symm.trans hd; exact ⟨rfl, hid⟩

theorem confirmJoin_becomes {callId coordinatorId callType : String} {e : Bool} :
    Becomes s (s.confirmJoin g callId coordinatorId callType u e now).1 g fun c c' => (s.get now g).2 = some c ∧
      (c' = c ∨ c' = c.joinedBy u e ∧
        ((s.confirmJoin g callId coordinatorId callType u e now).2 = .ADDED ∨
          (s.confirmJoin g callId coordinatorId callType u e now).2 = .ALREADY_PRESENT)) := by
  have hread : Becomes s (s.get now g).1 g fun c c' => (s.get now g).2 = some c ∧ c' = c := get_becomes hkeyed
  cases hget : (s.get now g).2 with
  | none =>
    simp only [Store.confirmJoin, hget, Store.join]
    intro g' d hd
    refine (hread g' d hd).imp_right ?_
    rintro ⟨-, c, -, hno, -⟩
    cases hget.symm.trans hno
  | some c =>
    obtain ⟨heq, hc⟩ := get_some hget
    simp only [Store.confirmJoin, hget, heq]
    rcases join_cases s g callId coordinatorId callType u e c with ⟨r, hj, -⟩ | ⟨-, -, -, -, hj⟩
    · rw [hj]
      exact becomes_self fun d hd => by cases hc.symm.trans hd; exact ⟨rfl, .inl rfl⟩
    · rw [hj]
      refine becomes_save hc ⟨rfl, .inr ⟨rfl, ?_⟩⟩
      by_cases hjoined : u ∈ c.joinedParticipants
      · exact .inr (if_pos hjoined)
      · exact .inl (if_neg hjoined)

end Becomes

section Inv

variable {s s' : Store} {h h' : Handler} {o : List Handler} {g u : String} {now : ℤ}

/-- A step on one group's call: the handler owed nothing to the calls of other groups, and the call is in order or
attended after it. -/
theorem Inv.becomes {R : ActiveCall → ActiveCall → Prop} (hi : Inv s (h :: o)) (hb : Becomes s s' g R)
    (hsnap : h'.snapshots ⊆ h.snapshots) (hid : ∀ c c', R c c' → c'.groupId = c.groupId ∧ c'.instanceId = c.instanceId)
    (hidle : ∀ c, c.groupId ≠ g → ¬ h.closes c ∧ ¬ h.hands c)
    (hcall : ∀ c c', s.active.get g = some c → c.groupId = g → R c c' → Sized c (h :: o) → Led c (h :: o) →
      Sized c' (h' :: o) ∧ Led c' (h' :: o)) : Inv s' (h' :: o) := by
  have hgroup : ∀ g' c', s'.active.get g' = some c' → Sized c' (h' :: o) ∧ Led c' (h' :: o) := by
    intro g' c' hc'
    rcases hb g' c' hc' with ⟨hne, hc⟩ | ⟨rfl, c, hc, hR⟩
    · have hidle := hidle c' fun he => hne ((hi.keyed g' c' hc).symm.trans he)
      exact ⟨((hi.sized g' c' hc).others hidle.1).weaken, ((hi.led g' c' hc).others hidle).weaken⟩
    · exact hcall c c' hc (hi.keyed g' c hc) hR (hi.sized g' c hc) (hi.led g' c hc)
  refine ⟨fun g' c' hc' => ?_, fun x hx a ha c' hc' => ?_, fun g' c' hc' => (hgroup g' c' hc').1,
    fun g' c' hc' => (hgroup g' c' hc').2⟩
  · rcases hb g' c' hc' with ⟨-, hc⟩ | ⟨rfl, c, hc, hR⟩
    · exact hi.keyed g' c' hc
    · exact (hid c c' hR).1.trans (hi.keyed g' c hc)
  · have hold : ∃ y ∈ h :: o, a ∈ y.snapshots := by
      rcases List.mem_cons.1 hx with rfl | hx
      · exact ⟨h, List.mem_cons_self, hsnap ha⟩
      · exact ⟨x, List.mem_cons_of_mem h hx, ha⟩
    obtain ⟨y, hy, ha⟩ := hold
    rcases hb a.groupId c' hc' with ⟨-, hc⟩ | ⟨hg, c, hc, hR⟩
    · exact hi.same y hy a ha c' hc
    · exact (hid c c' hR).2.trans (hi.same y hy a ha c (hg ▸ hc))

/-- A handler that is about to do nothing for any call reads the store: calls past their lifetime may go. -/
theorem Inv.pruned {readings : List ℤ} (hi : Inv s (h :: o)) (hp : Pruned readings s s')
    (hsnap : ∀ a ∈ h'.snapshots, a ∈ h.snapshots ∨ s.active.get a.groupId = some a)
    (hidle : ∀ c, ¬ h.closes c ∧ ¬ h.hands c) : Inv s' (h' :: o) where
  keyed g c hc := hi.keyed g c (hp.get_some hc)
  same x hx a ha c hc := by
    rcases List.mem_cons.1 hx with rfl | hx
    · rcases hsnap a ha with ha | hstored
      · exact hi.same h List.mem_cons_self a ha c (hp.get_some hc)
      · cases hstored.symm.trans (hp.get_some hc)
        rfl
    · exact hi.same x (List.mem_cons_of_mem h hx) a ha c (hp.get_some hc)
  sized g c hc := ((hi.sized g c (hp.get_some hc)).others (hidle c).1).weaken
  led g c hc := ((hi.led g c (hp.get_some hc)).others (hidle c)).weaken

theorem Inv.perm {hs hs' : List Handler} (hp : List.Perm hs hs') (hi : Inv s hs) : Inv s hs' where
  keyed := hi.keyed
  same h hh := hi.same h (hp.mem_iff.2 hh)
  sized g c hc := (hi.sized g c hc).mono fun _ hh _ => hp.mem_iff.1 hh
  led g c hc := (hi.led g c hc).mono fun _ hh _ => hp.mem_iff.1 hh

theorem Inv.start (hi : Inv s o) (r : Request) : Inv s (r.handler :: o) where
  keyed := hi.keyed
  same h hh := by
    rcases List.mem_cons.1 hh with rfl | hh
    · cases r <;> exact fun a ha => absurd ha List.not_mem_nil
    · exact hi.same h hh
  sized g c hc := (hi.sized g c hc).weaken
  led g c hc := (hi.led g c hc).weaken

theorem Inv.removing {active : ActiveCall} {route : Route} {r : Reading} (hi : Inv s (.removing u active route :: o))
    (hsafe : (Handler.removing u active route).safe s r o) :
    Inv (s.removeParticipant active.groupId u r.now).1 (.reading u active route :: o) := by
  refine hi.becomes (removeParticipant_becomes hi.keyed) (List.Subset.refl _) ?_ (fun _ _ => ⟨id, id⟩) ?_
  · rintro c c' ⟨-, ⟨rfl, -⟩ | ⟨rfl, -⟩⟩ <;> exact ⟨rfl, rfl⟩
  · rintro c c' hc hg ⟨hread, ⟨rfl, -⟩ | ⟨rfl, hu⟩⟩ hsized hled
    · exact ⟨(hsized.others id).weaken, (hled.others ⟨id, id⟩).weaken⟩
    · have hfew : (c.participants.erase u).card ≤ 1 → (Handler.reading u active route).closes (c.without u) :=
        fun hle => ⟨hg.symm, LinkedSet.card_erase_le.trans hle⟩
      constructor
      · by_cases hle : (c.participants.erase u).card ≤ 1
        · exact .inr ⟨_, List.mem_cons_self, hfew hle⟩
        · exact .inl (not_le.1 hle)
      · rcases hsafe c hread hu with hleader | hle | hled
        · exact .inr ⟨_, List.mem_cons_self, .inr ⟨hg.symm, hleader⟩⟩
        · exact .inr ⟨_, List.mem_cons_self, .inl (hfew hle)⟩
        · exact hled.weaken

theorem length_remaining (c : ActiveCall) (u : String) :
    (c.participants.elems.filter fun v => decide (v ≠ u)).length = (c.participants.erase u).card := by
  have herase : c.participants.elems.erase u = c.participants.elems.filter fun v => decide (v ≠ u) := by
    rw [c.participants.nodup.erase_eq_filter]
    exact List.filter_congr fun v _ => by simp [bne, beq_eq_decide]
  exact (congrArg List.length herase).symm

theorem settle_attends {active : ActiveCall} {route : Route} {r : Reading} {c : ActiveCall}
    (hg : active.groupId = c.groupId) (hled : Led c (.reading u active route :: o)) :
    Sized c (settle r u active route (some c) :: o) ∧ Led c (settle r u active route (some c) :: o) := by
  rw [settle]
  simp only [Option.map_some, Option.getD_some, length_remaining]
  split
  · exact ⟨.inr ⟨_, List.mem_cons_self, hg⟩, .inr ⟨_, List.mem_cons_self, .inl hg⟩⟩
  · rename_i hmany
    have htwo : 2 ≤ c.participants.card := Nat.le_trans (not_le.1 hmany) LinkedSet.card_erase_le
    refine ⟨.inl htwo, ?_⟩
    split
    · split
      · exact .inr ⟨_, List.mem_cons_self, .inl hg⟩
      · rename_i candidate hfind
        have hcandidate := List.find?_some hfind
        rw [Bool.and_eq_true, decide_eq_true_eq] at hcandidate
        exact .inr ⟨_, List.mem_cons_self, .inr ⟨hg, hcandidate.1⟩⟩
    · rename_i hleader
      exact (hled.others ⟨fun hcl => hmany hcl.2, fun hh => hleader hh.2⟩).weaken

theorem settle_snapshots (active : ActiveCall) (route : Route) (r : Reading) (refreshed : Option ActiveCall) :
    (settle r u active route refreshed).snapshots ⊆ active :: route.rest := by
  rw [settle]
  dsimp only
  split
  · exact List.Subset.refl _
  · split
    · split <;> exact List.Subset.refl _
    · exact List.subset_cons_of_subset active route.next_snapshots

theorem Inv.reading {active : ActiveCall} {route : Route} {r : Reading} (hi : Inv s (.reading u active route :: o)) :
    Inv (s.get r.now active.groupId).1 (settle r u active route (s.get r.now active.groupId).2 :: o) := by
  refine hi.becomes (get_becomes hi.keyed) (settle_snapshots active route r _) ?_ ?_ ?_
  · rintro c c' ⟨-, rfl⟩
    exact ⟨rfl, rfl⟩
  · exact fun c hne => ⟨fun hcl => hne hcl.1.symm, fun hh => hne hh.1.symm⟩
  · rintro c c' - hg ⟨hread, rfl⟩ - hled
    rw [hread]
    exact settle_attends hg.symm hled

theorem Inv.ending {active : ActiveCall} {route : Route} (hi : Inv s (.ending u active route :: o)) :
    Inv (s.endCall active.groupId (some active.instanceId)) (route.next u :: o) := by
  refine hi.becomes (endCall_becomes hi.keyed) (List.subset_cons_of_subset active route.next_snapshots) ?_ ?_ ?_
  · rintro c c' ⟨rfl, -⟩
    exact ⟨rfl, rfl⟩
  · exact fun c hne => ⟨fun hcl => hne hcl.symm, id⟩
  · rintro c c' hc - ⟨rfl, hid⟩ - -
    exact absurd (hi.same _ List.mem_cons_self active List.mem_cons_self _ hc) hid

theorem Inv.transferring {active : ActiveCall} {route : Route} {candidate : String} {r : Reading}
    (hi : Inv s (.transferring u active candidate route :: o))
    (hsafe : (Handler.transferring u active candidate route).safe s r o) :
    Inv (s.transferCoordinator active.groupId candidate (route.onlineFilter r) r.now).1 (route.next u :: o) := by
  refine hi.becomes (transferCoordinator_becomes hi.keyed) (List.subset_cons_of_subset active route.next_snapshots)
    ?_ ?_ ?_
  · rintro c c' ⟨-, ⟨rfl, -⟩ | ⟨rfl, -⟩⟩ <;> exact ⟨rfl, rfl⟩
  · exact fun c hne => ⟨id, fun hh => hne hh.1.symm⟩
  · rintro c c' - - ⟨hread, ⟨rfl, hkept⟩ | ⟨rfl, hjoined⟩⟩ hsized hled
    · refine ⟨(hsized.others id).weaken, ?_⟩
      by_cases hjoined : candidate ∈ c'.joinedParticipants
      · rcases hkept with rfl | hno | hoffline
        · exact .inl hjoined
        · exact absurd hjoined hno
        · rcases hsafe c' hread hjoined with honline | hled
          · exact absurd honline (by rw [hoffline]; decide)
          · exact hled.weaken
      · exact (hled.others ⟨id, fun hh => hjoined hh.2⟩).weaken
    · exact ⟨(hsized.others id).imp_right fun ⟨x, hx, hcl⟩ => ⟨x, List.mem_cons_of_mem _ hx, closes_congr rfl rfl hcl⟩,
        .inl hjoined⟩

theorem Inv.joining {callId coordinatorId callType : String} {e : Bool} {r : Reading}
    (hi : Inv s (.joining g callId coordinatorId callType u e :: o))
    (hsafe : (Handler.joining g callId coordinatorId callType u e).safe s r o) (hh' : h'.snapshots = []) :
    Inv (s.confirmJoin g callId coordinatorId callType u e r.now).1 (h' :: o) := by
  refine hi.becomes (confirmJoin_becomes hi.keyed) (hh' ▸ List.nil_subset _) ?_ (fun _ _ => ⟨id, id⟩) ?_
  · rintro c c' ⟨-, rfl | ⟨rfl, -⟩⟩ <;> exact ⟨rfl, rfl⟩
  · rintro c c' - - ⟨hread, rfl | ⟨rfl, haccepted⟩⟩ hsized hled
    · exact ⟨(hsized.others id).weaken, (hled.others ⟨id, id⟩).weaken⟩
    · exact ⟨((hsized.others id).joinedBy).weaken, (hsafe c hread haccepted).weaken⟩

theorem Inv.refusing {r : Reading} (hi : Inv s (.refusing g u :: o)) (hsafe : (Handler.refusing g u).safe s r o) :
    Inv (s.removeParticipant g u r.now).1 (.notifying g :: o) := by
  refine hi.becomes (removeParticipant_becomes hi.keyed) (List.Subset.refl _) ?_ (fun _ _ => ⟨id, id⟩) ?_
  · rintro c c' ⟨-, ⟨rfl, -⟩ | ⟨rfl, -⟩⟩ <;> exact ⟨rfl, rfl⟩
  · rintro c c' - - ⟨hread, ⟨rfl, -⟩ | ⟨rfl, hu⟩⟩ hsized hled
    · exact ⟨(hsized.others id).weaken, (hled.others ⟨id, id⟩).weaken⟩
    · exact ⟨(hsafe c hread hu).1.weaken, (hsafe c hread hu).2.weaken⟩

/-- **The step lemma**: every operation that meets the condition keeps every call in order or attended. -/
theorem Inv.exec {r : Reading} (hi : Inv s (h :: o)) (hsafe : h.safe s r o) (he : h.exec s r = some (s', h')) :
    Inv s' (h' :: o) := by
  cases h with
  | disconnecting u =>
    cases he
    have hp : Pruned [r.now] s (s.purgeExpired r.now) := purgeExpired_pruned List.mem_cons_self
    exact hi.pruned hp (fun a ha => absurd ha List.not_mem_nil) fun _ => ⟨id, id⟩
  | scanning u pending calls =>
    cases pending with
    | nil =>
      cases he
      exact hi.pruned (Pruned.refl : Pruned [] s s) (fun a ha => .inl ((Route.disconnect calls).next_snapshots ha))
        fun _ => ⟨id, id⟩
    | cons g gs =>
      rw [Handler.exec] at he
      split at he
      · cases he
        exact hi.pruned (Pruned.refl : Pruned [] s s) (fun a ha => .inl ha) fun _ => ⟨id, id⟩
      · rename_i c hget
        split at he
        · cases he
          refine hi.pruned (Pruned.refl : Pruned [] s s) (fun a ha => ?_) fun _ => ⟨id, id⟩
          rcases List.mem_append.1 ha with ha | ha
          · exact .inl ha
          · rw [List.mem_singleton.1 ha, hi.keyed g c hget]
            exact .inr hget
        · cases he
          exact hi.pruned (Pruned.refl : Pruned [] s s) (fun a ha => .inl ha) fun _ => ⟨id, id⟩
  | hangingUp u g =>
    have hp : Pruned [r.now] s (s.get r.now g).1 := get_pruned List.mem_cons_self
    simp only [Handler.exec] at he
    split at he
    · cases he
      exact hi.pruned hp (fun a ha => absurd ha List.not_mem_nil) fun _ => ⟨id, id⟩
    · rename_i active hread
      split at he
      · cases he
        exact hi.pruned hp (fun a ha => absurd ha List.not_mem_nil) fun _ => ⟨id, id⟩
      · cases he
        refine hi.pruned hp (fun a ha => .inr ?_) fun _ => ⟨id, id⟩
        have hget := (get_some hread).2
        rw [List.mem_singleton.1 ha, hi.keyed g active hget]
        exact hget
  | joining g c o t u e =>
    cases he
    refine hi.joining hsafe ?_
    split <;> rfl
  | removing u active route =>
    cases he
    exact hi.removing hsafe
  | reading u active route =>
    cases he
    exact hi.reading
  | ending u active route =>
    cases he
    exact hi.ending
  | transferring u active candidate route =>
    cases he
    exact hi.transferring hsafe
  | refusing g u =>
    cases he
    exact hi.refusing hsafe
  | notifying g =>
    cases he
    have hp : Pruned [r.now] s (s.get r.now g).1 := get_pruned List.mem_cons_self
    exact hi.pruned hp (fun a ha => absurd ha List.not_mem_nil) fun _ => ⟨id, id⟩
  | finished => cases he

end Inv

/-- **When a surviving call has a coordinator**: in every run, from calls in order, whose steps meet the condition. -/
theorem handover_run {s : Store} {q : Server} {labels : List (Pool.Label Request Reading)}
    (hordered : ∀ g c, s.active.get g = some c →
      c.groupId = g ∧ c.coordinatorId ∈ c.joinedParticipants ∧ 2 ≤ c.participants.card)
    (hm : Meets serve (Pool.Moves Handler.safe) ⟨s, []⟩ labels) (hr : run serve ⟨s, []⟩ labels = some q)
    (hfinished : ∀ h ∈ q.threads, h = .finished) :
    ∀ g c, q.shared.active.get g = some c → c.coordinatorId ∈ c.joinedParticipants ∧ 2 ≤ c.participants.card := by
  have hinit : Inv s [] :=
    { keyed := fun g c hc => (hordered g c hc).1
      same := fun _ hh => absurd hh List.not_mem_nil
      sized := fun g c hc => .inl (hordered g c hc).2.2
      led := fun g c hc => .inl (hordered g c hc).2.1 }
  have hexec : ∀ s h r o s' h', Inv s (h :: o) → h.safe s r o → h.exec s r = some (s', h') → Inv s' (h' :: o) :=
    fun _ _ _ _ _ _ hi hsafe he => hi.exec hsafe he
  have hinv : Inv q.shared q.threads :=
    Pool.invariant Inv (fun _ _ _ hp hi => hi.perm hp) (fun _ _ r hi => hi.start r) hexec hinit hm hr
  intro g c hc
  constructor
  · rcases hinv.led g c hc with hjoined | ⟨h, hh, hattends⟩
    · exact hjoined
    · rw [hfinished h hh] at hattends
      exact hattends.elim False.elim False.elim
  · rcases hinv.sized g c hc with htwo | ⟨h, hh, hcl⟩
    · exact htwo
    · rw [hfinished h hh] at hcl
      exact hcl.elim

def sampleCall : ActiveCall where
  groupId := "group"
  callId := "call"
  coordinatorId := "ann"
  callType := "VIDEO"
  participants := LinkedSet.ofList ["ann", "bob", "carol", "dave"]
  invitedParticipants := LinkedSet.ofList ["ann", "bob", "carol", "dave"]
  joinedParticipants := LinkedSet.ofList ["ann", "bob", "carol", "dave"]
  requiresMediaE2ee := false
  instanceId := 0
  mediaE2eeParticipants := LinkedSet.empty
  startedAt := 0

def sampleStore : Store := ⟨Table.empty.put "group" sampleCall, 1⟩

def everyone : Reading := ⟨1, ["ann", "bob", "carol", "dave"]⟩

theorem sample_ordered : ∀ g c, sampleStore.active.get g = some c →
    c.groupId = g ∧ c.coordinatorId ∈ c.joinedParticipants ∧ 2 ≤ c.participants.card := by
  intro g c hc
  have hmem := Table.get_eq_some.1 hc
  cases List.mem_singleton.1 (show (g, c) ∈ [("group", sampleCall)] from hmem)
  exact ⟨rfl, by decide, by decide⟩

def sampleRun : List (Pool.Label Request Reading) :=
  .append (.start (.hangup "ann" "group") :: List.replicate 4 (.step 0 everyone))
    (.start (.hangup "bob" "group") :: List.replicate 4 (.step 1 everyone))

theorem handover_sample :
    ∃ q, run serve ⟨sampleStore, []⟩ sampleRun = some q ∧ (∀ h ∈ q.threads, h = .finished) ∧
      ∀ g c, q.shared.active.get g = some c → c.coordinatorId ∈ c.joinedParticipants ∧ 2 ≤ c.participants.card := by
  have hm : Meets serve (Pool.Moves Handler.safe) ⟨sampleStore, []⟩ sampleRun := by decide +kernel
  have hex : ∃ q, run serve ⟨sampleStore, []⟩ sampleRun = some q ∧ ∀ h ∈ q.threads, h = .finished :=
    exists_run _ _ _ (by decide +kernel)
  obtain ⟨q, hr, hfinished⟩ := hex
  exact ⟨q, hr, hfinished, handover_run sample_ordered hm hr hfinished⟩

/-- Bob's HANGUP has read the call while Ann coordinates it; Ann hands it to Bob; Bob leaves as a plain member. -/
theorem handover_lost :
    ∃ q, run serve ⟨sampleStore, []⟩
        (.start (.hangup "bob" "group") :: .step 0 everyone :: .start (.hangup "ann" "group") ::
          List.replicate 4 (.step 1 everyone) ++ List.replicate 2 (.step 0 everyone)) = some q ∧
      (∀ h ∈ q.threads, h = .finished) ∧
      ∃ c ∈ q.shared.active.get "group", c.coordinatorId = "bob" ∧ ¬ c.coordinatorId ∈ c.joinedParticipants ∧
        c.participants.elems = ["carol", "dave"] :=
  exists_run _ _ _ (by decide +kernel)

end GroupCall
end SecureChat
