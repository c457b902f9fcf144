import SecureChat.GroupSending
/-!
# GroupSendRules — what group sends keep of a history

An invariant is an assertion about the device with one about every call that waits, which depends on the stage the call
has come to.  `Laws` are the conditions on the two, one for each thing that a send, a rotation or a change of the roster
does; `kept_run` is the rule: in every run that writes rosters and resets sessions only where the laws admit it, the
invariant holds of every state.
-/
namespace SecureChat
namespace GroupSending

open Async
open scoped GroupControl
open GroupControl (Text ConversationEntity GroupNotificationSignal Action)
open Program (modify catching whenever)

namespace Phone

structure Same (s s' : Phone) : Prop where
  members : ∀ k, s'.roster k = s.roster k
  sessions : s'.device.groupSessions = s.device.groupSessions
  index : s'.messageIndex = s.messageIndex
  outbox : s'.outbox = s.outbox
  removedAt : s'.removedAt = s.removedAt

/-- A change of the device that leaves the members and the sessions alone. -/
structure Tame (f : GroupControl.Device → GroupControl.Device) : Prop where
  members : ∀ d k, ((f d).conversations.get k).bind (fun c => c.groupMembers) =
    (d.conversations.get k).bind fun c => c.groupMembers
  sessions : ∀ d, (f d).groupSessions = d.groupSessions

theorem Tame.same {f : GroupControl.Device → GroupControl.Device} (hf : Tame f) (s : Phone) :
    s.Same (s.updateDevice f) where
  members k := congrArg _members (hf.members s.device k)
  sessions := hf.sessions s.device
  index := rfl
  outbox := rfl
  removedAt := rfl

theorem tame_patch (groupId : Text) {f : ConversationEntity → ConversationEntity}
    (hf : ∀ c, (f c).groupMembers = c.groupMembers) : Tame fun d => d.patch groupId f := by
  constructor
  · intro d k
    unfold GroupControl.Device.patch
    split
    · rfl
    · rename_i c hc
      by_cases hk : k = groupId
      · subst hk
        rw [Table.get_put_self, hc]
        exact hf c
      · rw [Table.get_put_of_ne hk]
  · intro d
    unfold GroupControl.Device.patch
    split
    · rfl
    · rfl

theorem tame_updateGroupAdmins (groupId : Text) (ids : List Text) : Tame fun d => d.updateGroupAdmins groupId ids :=
  tame_patch groupId fun _ => rfl

theorem tame_record (groupId memberId : Text) : Tame fun d => d.record groupId memberId := ⟨fun _ _ => rfl, fun _ => rfl⟩

theorem tame_clear (groupId memberId : Text) : Tame fun d => d.clear groupId memberId := ⟨fun _ _ => rfl, fun _ => rfl⟩

theorem same_putPending (s : Phone) (groupId : Text) (pending : PendingSenderKey) :
    s.Same (s.putPending groupId pending) := ⟨fun _ => rfl, rfl, rfl, rfl, rfl⟩

theorem same_deletePending (s : Phone) (groupId : Text) : s.Same (s.deletePending groupId) :=
  ⟨fun _ => rfl, rfl, rfl, rfl, rfl⟩

def Drops (s : Phone) (groupId : Text) (ids : List Text) (id : Text) : Prop :=
  id ∈ s.roster groupId ∧ ¬ id ∈ (s.updateGroupMembers groupId ids).roster groupId

instance (s : Phone) (groupId : Text) (ids : List Text) (id : Text) : Decidable (s.Drops groupId ids id) :=
  inferInstanceAs (Decidable (_ ∧ _))

end Phone

/-- Assertions about the device and about the stages of the calls, and what they have to meet. -/
structure Laws where
  Sound : Phone → Prop
  Fact : Phone → Text → Stage → Prop
  Writes : Text → List Text → Phone → List Wait → Prop
  Resets : Text → Phone → List Wait → Prop
  outside {s g} : Fact s g .outside
  prepares {s g rs} : Sound s → (∀ r ∈ rs, r ∈ s.roster g) → Fact s g (.preparing rs)
  rotates {s g rs} : Sound s → (∀ r ∈ rs, r ∈ s.roster g) → Fact s g (.rotating rs)
  preparing_mono {s g rs rs'} : (∀ r ∈ rs', r ∈ rs) → Fact s g (.preparing rs) → Fact s g (.preparing rs')
  rotating_mono {s g rs rs'} : (∀ r ∈ rs', r ∈ rs) → Fact s g (.rotating rs) → Fact s g (.rotating rs')
  distributing_mono {s g key rs rs' ks ks'} : (∀ r ∈ rs', r ∈ rs) → (∀ r ∈ ks', r ∈ ks) →
    Fact s g (.distributing key rs ks) → Fact s g (.distributing key rs' ks')
  same {s s'} : s.Same s' → Sound s → Sound s'
  same_fact {s s' k st} : s.Same s' → Fact s k st → Fact s' k st
  handOver_fact {s k st} (e : Envelope) : Fact s k st → Fact (s.handOver e) k st
  accept {s} (e : Envelope) : Sound s → Sound (s.accept e)
  accept_fact {s k st} (e : Envelope) : Fact s k st → Fact (s.accept e) k st
  control {s g rs r action ids} : Sound s → Fact s g (.preparing rs) → r ∈ rs →
    Sound (s.handOver ⟨g, r, .control action ids, s.removedAt g r⟩)
  key {s g key rs ks r} : Sound s → Fact s g (.distributing key rs ks) → r ∈ rs →
    Sound (s.handOver ⟨g, r, .distribution key, s.removedAt g r⟩)
  rotated {s g rs r key} : Sound s → Fact s g (.rotating rs) → r ∈ rs →
    Sound (s.handOver ⟨g, r, .distribution key, s.removedAt g r⟩)
  held {s g signals e} : Sound s → Fact s g (.fanningOut signals) → e ∈ signals → Sound (s.handOver e)
  served {s g key rs ks r t} : Fact s g (.distributing key rs ks) →
    Fact (s.accept ⟨g, r, .distribution key, t⟩) g (.distributing key rs (r :: ks))
  opens {s} (g : Text) : Sound s → Sound (s.createSenderKeyDistribution g).1
  opens_fact {s k st} (g : Text) : Fact s k st → Fact (s.createSenderKeyDistribution g).1 k st
  opens_own {s g rs} : Fact s g (.preparing rs) →
    Fact (s.createSenderKeyDistribution g).1 g (.distributing (s.createSenderKeyDistribution g).2 rs [])
  encrypts {s} (g : Text) : Sound s → Sound (s.encryptGroup g).1
  encrypts_fact {s k st} (g : Text) : Fact s k st → Fact (s.encryptGroup g).1 k st
  encrypts_own {s g key rs} : Fact s g (.distributing key rs rs) →
    Fact (s.encryptGroup g).1 g (.routing (s.encryptGroup g).2 [] rs)
  route {s g message routed r rest} : Fact s g (.routing message routed (r :: rest)) →
    Fact s g (.routing message (routed ++ [⟨g, r, .route message, s.removedAt g r⟩]) rest)
  routed {s g message routed left} : Fact s g (.routing message routed left) → Fact s g (.fanningOut routed)
  write {s g ids o} : Sound s → (∀ w ∈ o, Fact s w.groupId w.stage) → Writes g ids s o →
    Sound (s.updateGroupMembers g ids) ∧ ∀ w ∈ o, Fact (s.updateGroupMembers g ids) w.groupId w.stage
  reset {s g o} : Sound s → (∀ w ∈ o, Fact s w.groupId w.stage) → Resets g s o →
    Sound (s.resetLocalSenderKey g) ∧ ∀ w ∈ o, Fact (s.resetLocalSenderKey g) w.groupId w.stage
  reset_own {s g rs} : Fact s g (.rotating rs) → Fact (s.resetLocalSenderKey g) g (.rotating rs)

namespace Laws

variable (L : Laws)

def rules : Tasks.Rules Bool Wait Phone Call where
  Inv s o := L.Sound s ∧ ∀ w ∈ o, L.Fact s w.groupId w.stage
  Starts _ _ _ := True
  Admitted w answer s o := match w.op, answer with
    | .updateGroupMembers ids, some _ => L.Writes w.groupId ids s o
    | .resetLocalSenderKey, some _ => L.Resets w.groupId s o
    | _, _ => True

def decidableAdmitted (writes : ∀ g ids s o, Decidable (L.Writes g ids s o))
    (resets : ∀ g s o, Decidable (L.Resets g s o)) (w : Wait) (answer : Option Bool) (s : Phone) (o : List Wait) :
    Decidable (L.rules.Admitted w answer s o) := by
  unfold rules
  dsimp only
  split
  · exact writes _ _ s o
  · exact resets _ s o
  · exact isTrue trivial

def At (g : Text) (st : Stage) (s : Phone) (o : List Wait) : Prop := L.rules.Inv s o ∧ L.Fact s g st

abbrev Does {α : Type} (n : ℕ) (P : Phone → List Wait → Prop) (p : Prog α) (Q : α → Phone → List Wait → Prop) : Prop :=
  p.Triple (tasks n) L.rules P Q

section Steps

variable {L} {n : ℕ} {α : Type} {P : Phone → List Wait → Prop} {s : Phone} {o : List Wait} {g : Text} {st : Stage}

theorem inv_cons {w : Wait} : L.rules.Inv s (w :: o) ↔ L.At w.groupId w.stage s o := by
  constructor
  · intro h
    exact ⟨⟨h.1, fun w' hw' => h.2 w' (List.mem_cons_of_mem _ hw')⟩, h.2 w List.mem_cons_self⟩
  · intro h
    refine ⟨h.1.1, fun w' hw' => ?_⟩
    rcases List.mem_cons.1 hw' with rfl | hw'
    · exact h.2
    · exact h.1.2 w' hw'

theorem At.inv (h : L.At g st s o) : L.rules.Inv s o := h.1

theorem at_outside (h : L.rules.Inv s o) : L.At g .outside s o := ⟨h, L.outside⟩

theorem does_transact {w : Wait} {f : Phone → Phone × α} {Q : α → Phone → List Wait → Prop}
    (hp : ∀ s o, P s o → L.At w.groupId w.stage s o)
    (hq : ∀ i s o, L.At w.groupId w.stage s o → L.rules.Admitted w (some i) s o → Q (f s).2 (f s).1 o) :
    L.Does n P (transact w f) Q :=
  Program.triple_await (fun s o h => inv_cons.2 (hp s o h)) (fun _ _ h => (inv_cons.1 h).inv) fun i s o h ha =>
    hq i s o (inv_cons.1 h) ha

theorem does_idle {op : Op} : L.Does n (L.At g st) (idle ⟨op, g, st⟩) fun _ => L.At g st :=
  does_transact (fun _ _ h => h) fun _ _ _ h _ => h

theorem does_query {op : Op} {f : Phone → α} :
    L.Does n (L.At g st) (query ⟨op, g, st⟩ f) fun a s o => a = f s ∧ L.At g st s o :=
  does_transact (fun _ _ h => h) fun _ _ _ h _ => ⟨rfl, h⟩

theorem does_same {op : Op} {f : Phone → Phone} (hf : ∀ s : Phone, s.Same (f s)) :
    L.Does n (L.At g st) (perform ⟨op, g, st⟩ f) fun _ => L.At g st :=
  does_transact (fun _ _ h => h) fun _ s _ h _ =>
    ⟨⟨L.same (hf s) h.1.1, fun w hw => L.same_fact (hf s) (h.1.2 w hw)⟩, L.same_fact (hf s) h.2⟩

theorem does_sessionUserId : L.Does n P sessionUserId fun _ => P :=
  Program.triple_get.bind fun _ => Program.triple_pure fun _ _ h => h.2

theorem does_getById : L.Does n L.rules.Inv (getById g) fun c s o =>
    c = s.device.conversations.get g ∧ L.rules.Inv s o :=
  does_query.mono (fun _ _ h => at_outside h) fun _ _ _ h => ⟨h.1, h.2.inv⟩

theorem At.handOver {e : Envelope} (h : L.At g st s o) (he : L.Sound (s.handOver e)) : L.At g st (s.handOver e) o :=
  ⟨⟨he, fun w hw => L.handOver_fact e (h.1.2 w hw)⟩, L.handOver_fact e h.2⟩

theorem At.accept {e : Envelope} (h : L.At g st s o) : L.At g st (s.accept e) o :=
  ⟨⟨L.accept e h.1.1, fun w hw => L.accept_fact e (h.1.2 w hw)⟩, L.accept_fact e h.2⟩

theorem does_sendSignal {e : Envelope} {Q : Bool → Phone → List Wait → Prop}
    (hp : ∀ s o, P s o → L.At e.groupId st s o ∧ L.Sound (s.handOver e))
    (ht : ∀ s o, L.At e.groupId st s o → Q true (s.accept e) o) (hf : ∀ s o, L.At e.groupId st s o → Q false s o) :
    L.Does n P (sendSignal e st) Q := by
  refine Program.Triple.bind (Q := fun _ => L.At e.groupId st)
    (Program.triple_modify fun s o h => (hp s o h).1.handOver (hp s o h).2) fun _ => ?_
  refine Program.triple_await (fun s o h => inv_cons.2 h) (fun _ _ h => (inv_cons.1 h).inv) fun sent s o h _ => ?_
  cases sent with
  | true => exact ht s o (inv_cons.1 h)
  | false => exact hf s o (inv_cons.1 h)

theorem does_dispatch {β : Type} {r : Text} {plaintext : Plaintext} {k : Bool → Prog β} {A : Phone → List Wait → Prop}
    {Q : β → Phone → List Wait → Prop}
    (hs : ∀ s, L.Sound s → L.Fact s g st → L.Sound (s.handOver ⟨g, r, plaintext, s.removedAt g r⟩))
    (ha : ∀ s o t, L.At g st s o → A (s.accept ⟨g, r, plaintext, t⟩) o) (ht : L.Does n A (k true) Q)
    (hf : L.Does n (L.At g st) (k false) Q) :
    L.Does n (L.At g st) (encryptDirect g r plaintext st >>= fun e => sendSignal e st >>= k) Q := by
  refine Program.Triple.bind (Q := fun e s o => (∃ t, e = ⟨g, r, plaintext, t⟩) ∧ e.removedAt = s.removedAt g r ∧
    L.At g st s o) ?_ fun e => Program.triple_of ?_
  · exact does_query.mono (fun _ _ h => h) fun e s o h =>
      ⟨⟨_, h.1⟩, by rw [h.1], h.2⟩
  · rintro ⟨t, rfl⟩
    refine Program.Triple.bind (Q := fun sent s o => if sent = true then A s o else L.At g st s o)
      (does_sendSignal ?_ ?_ ?_) ?_
    · rintro s o ⟨rfl, h⟩
      exact ⟨h, hs s h.1.1 h.2⟩
    · exact fun s o h => ha s o t h
    · exact fun s o h => h
    · intro sent
      cases sent with
      | true => exact ht
      | false => exact hf

end Steps

section Sends

variable {L} {n : ℕ} {g : Text}

theorem mem_targets {me id : Text} {ids : List Text} : id ∈ targets me ids ↔ id ∈ ids ∧ id ≠ me := by
  unfold targets
  rw [show ∀ l : List Text, id ∈ (LinkedSet.ofList l).elems ↔ id ∈ l from fun _ => LinkedSet.mem_ofList,
    List.mem_filter, decide_eq_true_eq]

theorem does_controlsTo {action : Action} {ids recipients : List Text} : ∀ {left : List Text},
    (∀ r ∈ left, r ∈ recipients) → L.Does n (L.At g (.preparing recipients))
      (controlsTo g (.control action ids) recipients left) fun _ => L.At g (.preparing recipients)
  | [], _ => Program.triple_pure fun _ _ h => h
  | r :: _, hl => by
    unfold controlsTo
    refine does_dispatch (A := L.At g (.preparing recipients)) ?_ ?_ ?_ ?_
    · exact fun s hs hf => L.control hs hf (hl r List.mem_cons_self)
    · exact fun s o t h => h.accept
    · exact does_controlsTo fun x hx => hl x (List.mem_cons_of_mem _ hx)
    · exact Program.triple_throw fun _ _ h => h.inv

theorem does_sendControl {me : Text} {action : Action} {ids members recipients : List Text}
    (hm : ∀ r, r ∈ recipients ↔ r ∈ members ∧ r ≠ me) (hne : ∀ r ∈ members, r ≠ []) :
    L.Does n (L.At g (.preparing recipients)) (sendControl me g action ids members) fun _ =>
      L.At g (.preparing recipients) := by
  have hsub : ∀ r, r ∈ targets me (members.filter fun id => decide (id ≠ [])) ↔ r ∈ recipients := by
    intro r
    rw [mem_targets, List.mem_filter, decide_eq_true_eq, hm]
    exact ⟨fun h => ⟨h.1.1, h.2⟩, fun h => ⟨⟨h.1, hne r h.1⟩, h.2⟩⟩
  unfold sendControl
  dsimp only
  split
  · exact Program.triple_throw fun _ _ h => h.inv
  · refine Program.Triple.bind (does_idle.mono ?_ fun _ _ _ h => h) fun _ => ?_
    · exact fun s o h => ⟨h.1, L.preparing_mono (fun r hr => (hsub r).1 hr) h.2⟩
    · exact (does_controlsTo fun _ h => h).mono (fun _ _ h => h) fun _ s o h =>
        ⟨h.1, L.preparing_mono (fun r hr => (hsub r).2 hr) h.2⟩

theorem does_keyTo {key : SenderKey} {recipients : List Text} : ∀ {served left : List Text},
    (∀ r ∈ left, r ∈ recipients) → L.Does n (L.At g (.distributing key recipients served))
      (keyTo g key recipients served left) fun _ => L.At g (.distributing key recipients (left.reverse ++ served))
  | _, [], _ => Program.triple_pure fun _ _ h => h
  | served, r :: _, hl => by
    unfold keyTo
    refine does_dispatch (A := L.At g (.distributing key recipients (r :: served))) ?_ ?_ ?_ ?_
    · exact fun s hs hf => L.key hs hf (hl r List.mem_cons_self)
    · exact fun s o t h => ⟨h.accept.1, L.served h.2⟩
    · refine (does_keyTo fun x hx => hl x (List.mem_cons_of_mem _ hx)).mono (fun _ _ h => h) fun _ s o h => ?_
      rw [List.reverse_cons, List.append_assoc]
      exact h
    · exact Program.triple_throw fun _ _ h => h.inv

theorem does_distribute {me : Text} {members recipients : List Text}
    (hm : ∀ r, r ∈ recipients ↔ r ∈ members ∧ r ≠ me) :
    L.Does n (L.At g (.preparing recipients)) (distributeGroupSenderKey me g members) fun key =>
      L.At g (.distributing key recipients recipients) := by
  have hsub : ∀ r, r ∈ targets me members ↔ r ∈ recipients := fun r => by rw [mem_targets, hm]
  unfold distributeGroupSenderKey
  refine Program.Triple.bind (Q := fun key => L.At g (.distributing key (targets me members) []))
    (does_transact ?_ ?_) fun key => ?_
  · exact fun s o h => ⟨h.1, L.preparing_mono (fun r hr => (hsub r).1 hr) h.2⟩
  · exact fun _ s o h _ => ⟨⟨L.opens g h.1.1, fun w hw => L.opens_fact g (h.1.2 w hw)⟩, L.opens_own h.2⟩
  · refine (does_keyTo fun _ h => h).bind fun _ => Program.triple_pure fun s o h => ⟨h.1, ?_⟩
    refine L.distributing_mono (fun r hr => (hsub r).2 hr) (fun r hr => ?_) h.2
    rw [List.append_nil, List.mem_reverse]
    exact (hsub r).2 hr

theorem does_encryptGroupWire {key : SenderKey} {recipients : List Text} :
    L.Does n (L.At g (.distributing key recipients recipients)) (encryptGroupWire g key recipients) fun message =>
      L.At g (.routing message [] recipients) := by
  unfold encryptGroupWire
  refine does_idle.bind fun _ => ?_
  refine Program.Triple.bind (Q := fun message => L.At g (.routing message [] recipients)) (does_transact ?_ ?_)
    fun message => ?_
  · exact fun s o h => h
  · exact fun _ s o h _ => ⟨⟨L.encrypts g h.1.1, fun w hw => L.encrypts_fact g (h.1.2 w hw)⟩, L.encrypts_own h.2⟩
  · exact does_idle.bind fun _ => Program.triple_pure fun _ _ h => h

theorem does_routeTo {message : GroupCiphertext} : ∀ {routed : List Envelope} {left : List Text},
    (∀ e ∈ routed, e.groupId = g) → L.Does n (L.At g (.routing message routed left))
      (routeTo g message routed left) fun signals s o =>
        (∀ e ∈ signals, e.groupId = g) ∧ L.At g (.fanningOut signals) s o
  | _, [], hg => Program.triple_pure fun _ _ h => ⟨hg, h.1, L.routed h.2⟩
  | routed, r :: _, hg => by
    unfold routeTo
    refine Program.Triple.bind (Q := fun e s o => e.groupId = g ∧ L.At g (.routing message (routed ++ [e]) _) s o)
      (does_transact (fun _ _ h => h) ?_) fun e => Program.triple_of fun he => does_routeTo fun x hx => ?_
    · exact fun _ s o h _ => ⟨rfl, h.1, L.route h.2⟩
    · rcases List.mem_append.1 hx with hx | hx
      · exact hg x hx
      · exact (List.mem_singleton.1 hx) ▸ he

theorem does_prepare {me : Text} {members recipients : List Text}
    (hm : ∀ r, r ∈ recipients ↔ r ∈ members ∧ r ≠ me) (hne : ∀ r ∈ members, r ≠ []) :
    L.Does n (L.At g (.preparing recipients)) (prepare me g members recipients) fun signals s o =>
      (∀ e ∈ signals, e.groupId = g) ∧ L.At g (.fanningOut signals) s o := by
  unfold prepare
  refine (does_sendControl hm hne).bind fun _ => ?_
  refine (does_distribute hm).bind fun key => ?_
  refine does_encryptGroupWire.bind fun message => ?_
  split
  · exact Program.triple_throw fun _ _ h => h.inv
  · exact does_routeTo nofun

theorem does_attemptAll {signals : List Envelope} : ∀ {left : List Envelope} {allSent : Bool},
    (∀ e ∈ left, e ∈ signals) → (∀ e ∈ signals, e.groupId = g) → L.Does n (L.At g (.fanningOut signals))
      (attemptAll signals allSent left) fun _ => L.At g (.fanningOut signals)
  | [], _, _, _ => Program.triple_pure fun _ _ h => h
  | e :: _, _, hl, hg => by
    unfold attemptAll
    refine Program.Triple.bind (Q := fun _ => L.At g (.fanningOut signals)) ?_ fun sent =>
      does_attemptAll (fun x hx => hl x (List.mem_cons_of_mem _ hx)) hg
    have he : e.groupId = g := hg e (hl e List.mem_cons_self)
    refine does_sendSignal ?_ ?_ ?_
    · intro s o h
      rw [he]
      exact ⟨h, L.held h.1.1 h.2 (hl e List.mem_cons_self)⟩
    · intro s o h
      rw [he] at h
      exact h.accept
    · intro s o h
      rw [he] at h
      exact h

theorem does_conclude {outcome : SendMessageOutcome} :
    L.Does n L.rules.Inv (conclude g outcome) fun _ => L.rules.Inv :=
  Program.Triple.bind (Q := fun _ => L.rules.Inv)
    (does_idle.mono (fun _ _ h => at_outside h) fun _ _ _ h => h.inv) fun _ => Program.triple_pure fun _ _ h => h

theorem does_attempts {signals : List Envelope} (hg : ∀ e ∈ signals, e.groupId = g) : ∀ {left : ℕ},
    L.Does n (L.At g (.fanningOut signals)) (attempts g signals left) fun _ => L.rules.Inv
  | 0 => by
    refine (does_attemptAll (fun _ h => h) hg).bind fun allSent => ?_
    split
    · exact does_conclude.mono (fun _ _ h => h.inv) fun _ _ _ h => h
    · exact does_conclude.mono (fun _ _ h => h.inv) fun _ _ _ h => h
  | _ + 1 => by
    refine (does_attemptAll (fun _ h => h) hg).bind fun allSent => ?_
    split
    · exact does_conclude.mono (fun _ _ h => h.inv) fun _ _ _ h => h
    · exact does_idle.bind fun _ => does_idle.bind fun _ => does_attempts hg

theorem ne_nil_of_mem_members {csv : Option Text} {id : Text} (h : id ∈ _members csv) : id ≠ [] :=
  of_decide_eq_true (List.mem_filter.1 (LinkedSet.mem_ofList.1 h)).2

theorem does_call {maxRetryCount : ℕ} : L.Does n L.rules.Inv (call maxRetryCount g) fun _ => L.rules.Inv := by
  unfold call
  refine does_sessionUserId.bind fun userId => ?_
  split
  · exact Program.triple_throw fun _ _ h => h
  · rename_i me
    split
    · exact Program.triple_throw fun _ _ h => h
    · refine does_getById.bind fun c => ?_
      split
      · exact Program.triple_throw fun _ _ h => h.2
      · rename_i conversation hc
        obtain ⟨rfl, -⟩ := Option.filter_eq_some_iff.1 hc
        dsimp only
        split
        · exact Program.triple_pure fun _ _ h => h.2
        · have hm : ∀ r, r ∈ (_members conversation.groupMembers).filter (fun id => decide (id ≠ me)) ↔
              r ∈ _members conversation.groupMembers ∧ r ≠ me := fun r => by
            rw [List.mem_filter, decide_eq_true_eq]
          refine Program.Triple.bind (does_idle.mono ?_ fun _ _ _ h => h) fun _ => ?_
          · intro s o h
            refine ⟨h.2, L.prepares h.2.1 fun r hr => ?_⟩
            unfold Phone.roster
            rw [← h.1]
            exact ((hm r).1 hr).1
          · refine does_idle.bind fun _ => does_idle.bind fun _ => ?_
            refine ((does_prepare hm fun r hr => ne_nil_of_mem_members hr).attempt).bind fun r => ?_
            cases r with
            | ok signals => exact Program.triple_of fun hg => does_attempts hg
            | error e =>
              have hidle : ∀ op, L.Does n L.rules.Inv (idle ⟨op, g, .outside⟩) fun _ => L.rules.Inv := fun op =>
                does_idle.mono (fun _ _ h => at_outside h) fun _ _ _ h => h.inv
              refine (hidle _).bind fun _ => (hidle _).bind fun _ => ?_
              refine Program.Triple.bind (Q := fun _ => L.rules.Inv)
                ((hidle _).catching (fun _ _ _ h => h) (Program.triple_pure fun _ _ h => h)) fun _ => ?_
              exact Program.triple_pure fun _ _ h => h

end Sends

section Rotations

variable {L} {n : ℕ} {g : Text}

theorem does_rotateTo : ∀ {left : List Text} {pending : PendingSenderKey},
    L.Does n (L.At g (.rotating left)) (rotateTo g pending left) fun _ => L.rules.Inv
  | [], _ => by
    unfold rotateTo
    refine (does_same fun s => s.same_deletePending g).mono (fun _ _ h => at_outside h.inv) (fun _ _ _ h => h) |>.bind
      fun _ => Program.triple_pure fun _ _ h => h.inv
  | r :: rest, pending => by
    have hrest : ∀ x ∈ rest, x ∈ r :: rest := fun x hx => List.mem_cons_of_mem _ hx
    unfold rotateTo
    split
    · exact does_rotateTo.mono (fun s o h => ⟨h.1, L.rotating_mono hrest h.2⟩) fun _ _ _ h => h
    · dsimp only
      refine (Program.Triple.attempt (Q := fun _ => L.At g (.rotating (r :: rest)))
        (does_dispatch (A := L.At g (.rotating (r :: rest))) ?_ ?_ ?_ ?_)).bind fun delivered => ?_
      · exact fun s hs hf => L.rotated hs hf List.mem_cons_self
      · exact fun s o t h => h.accept
      · exact Program.Triple.bind (Q := fun _ => L.At g (.rotating (r :: rest)))
          (Program.Triple.whenever (fun _ => does_same fun s => s.same_putPending g _) fun _ _ _ h => h)
          fun _ => Program.triple_pure fun _ _ h => h
      · exact Program.Triple.bind (Q := fun _ => L.At g (.rotating (r :: rest)))
          (Program.Triple.whenever (fun _ => does_same fun s => s.same_putPending g _) fun _ _ _ h => h)
          fun _ => Program.triple_pure fun _ _ h => h
      · cases delivered with
        | error e => exact Program.triple_pure fun _ _ h => h
        | ok sent =>
          cases sent with
          | true => exact does_rotateTo.mono (fun s o h => ⟨h.1, L.rotating_mono hrest h.2⟩) fun _ _ _ h => h
          | false => exact Program.triple_pure fun _ _ h => h.inv

theorem does_newPendingKey {members : List Text} :
    L.Does n (L.At g (.rotating members)) (_newPendingKey g members) fun _ => L.At g (.rotating members) := by
  unfold _newPendingKey
  refine Program.Triple.bind (Q := fun _ => L.At g (.rotating members)) (does_transact (fun _ _ h => h) ?_) fun _ => ?_
  · intro _ s o h ha
    obtain ⟨hs, ho⟩ := L.reset h.1.1 h.1.2 ha
    exact ⟨⟨hs, ho⟩, L.reset_own h.2⟩
  · refine Program.Triple.bind (Q := fun _ => L.At g (.rotating members)) (does_transact (fun _ _ h => h) ?_) fun _ => ?_
    · exact fun _ s o h _ => ⟨⟨L.opens g h.1.1, fun w hw => L.opens_fact g (h.1.2 w hw)⟩, L.opens_fact g h.2⟩
    · exact Program.triple_pure fun _ _ h => h

theorem does_rotate : L.Does n L.rules.Inv (rotate g) fun _ => L.rules.Inv := by
  unfold rotate
  refine does_sessionUserId.bind fun userId => does_getById.bind fun c => ?_
  split
  · rename_i me group hgroup
    obtain ⟨rfl, -⟩ := Option.filter_eq_some_iff.1 hgroup
    dsimp only
    refine Program.Triple.bind (does_query.mono ?_ fun _ _ _ h => h.2) fun existing => ?_
    · intro s o h
      refine ⟨h.2, L.rotates h.2.1 fun r hr => ?_⟩
      unfold Phone.roster
      rw [← h.1]
      exact (List.mem_filter.1 hr).1
    · split
      · exact (does_same fun s => s.same_putPending g _).bind fun _ => does_rotateTo
      · refine does_newPendingKey.bind fun pending => ?_
        exact (does_same fun s => s.same_putPending g _).bind fun _ => does_rotateTo
  · exact Program.triple_pure fun _ _ h => h.2

end Rotations

section Management

variable {L} {n : ℕ} {g : Text}

theorem does_outside {op : Op} {f : Phone → Phone} (hf : ∀ s : Phone, s.Same (f s)) :
    L.Does n L.rules.Inv (perform ⟨op, g, .outside⟩ f) fun _ => L.rules.Inv :=
  (does_same hf).mono (fun _ _ h => at_outside h) fun _ _ _ h => h.inv

theorem does_idle_outside {op : Op} : L.Does n L.rules.Inv (idle ⟨op, g, .outside⟩) fun _ => L.rules.Inv :=
  does_idle.mono (fun _ _ h => at_outside h) fun _ _ _ h => h.inv

theorem does_writeMembers {ids : List Text} : L.Does n L.rules.Inv (writeMembers g ids) fun _ => L.rules.Inv :=
  does_transact (fun _ _ h => at_outside h) fun _ _ _ h ha => L.write h.1.1 h.1.2 ha

theorem does_resetLocalSenderKey : L.Does n L.rules.Inv (resetLocalSenderKey g) fun _ => L.rules.Inv :=
  does_transact (fun _ _ h => at_outside h) fun _ _ _ h ha => L.reset h.1.1 h.1.2 ha

theorem does_writeAdmins {ids : List Text} : L.Does n L.rules.Inv (writeAdmins g ids) fun _ => L.rules.Inv :=
  does_outside fun s => (Phone.tame_updateGroupAdmins g ids).same s

theorem does_recordRemoval {id : Text} : L.Does n L.rules.Inv (recordRemoval g id) fun _ => L.rules.Inv :=
  does_outside fun s => (Phone.tame_record g id).same s

theorem does_adminState : L.Does n L.rules.Inv (_adminState g) fun _ => L.rules.Inv := by
  unfold _adminState
  refine does_sessionUserId.bind fun userId => ?_
  split
  · exact Program.triple_throw fun _ _ h => h
  · refine does_getById.bind fun c => ?_
    split
    · exact Program.triple_throw fun _ _ h => h.2
    · dsimp only
      split
      · split
        · exact Program.triple_pure fun _ _ h => h.2
        · exact Program.triple_throw fun _ _ h => h.2
      · split
        · exact Program.triple_pure fun _ _ h => h.2
        · exact Program.triple_throw fun _ _ h => h.2

theorem does_removeMember {id : Text} : L.Does n L.rules.Inv (removeMember g id) fun _ => L.rules.Inv := by
  unfold removeMember
  refine does_adminState.bind fun state => ?_
  split
  · exact Program.triple_throw fun _ _ h => h
  · refine does_writeMembers.bind fun _ => ?_
    refine (Program.Triple.whenever (fun _ => does_writeAdmins) fun _ _ _ h => h).bind fun _ => ?_
    exact does_recordRemoval.bind fun _ => does_resetLocalSenderKey.bind fun _ => does_idle_outside

theorem does_clearRemovals : ∀ {ids : List Text}, L.Does n L.rules.Inv (clearRemovals g ids) fun _ => L.rules.Inv
  | [] => Program.triple_pure fun _ _ h => h
  | id :: _ => (does_outside fun s => (Phone.tame_clear g id).same s).bind fun _ => does_clearRemovals

theorem does_addMembers {ids : List Text} : L.Does n L.rules.Inv (addMembers g ids) fun _ => L.rules.Inv := by
  unfold addMembers
  refine does_adminState.bind fun state => ?_
  dsimp only
  split
  · exact Program.triple_throw fun _ _ h => h
  · exact does_writeMembers.bind fun _ => does_clearRemovals.bind fun _ => does_idle_outside

theorem does_removedFrom : L.Does n L.rules.Inv (removedFrom g) fun _ => L.rules.Inv :=
  does_query.mono (fun _ _ h => at_outside h) fun _ _ _ h => h.2.inv

theorem does_rotateOwnGroupKey : L.Does n L.rules.Inv (_rotateOwnGroupKey g) fun _ => L.rules.Inv := by
  unfold _rotateOwnGroupKey
  refine does_sessionUserId.bind fun userId => ?_
  split
  · exact Program.triple_pure fun _ _ h => h
  · exact does_resetLocalSenderKey

theorem does_forget {id : Text} : L.Does n L.rules.Inv (forget g id) fun _ => L.rules.Inv :=
  does_idle_outside.bind fun _ => does_recordRemoval.bind fun _ => does_rotateOwnGroupKey

variable {signal : GroupNotificationSignal} {group : ConversationEntity}

theorem does_mergeGroup : L.Does n L.rules.Inv (mergeGroup signal group) fun _ => L.rules.Inv := by
  unfold mergeGroup
  split
  · exact Program.triple_pure fun _ _ h => h
  · exact does_removedFrom.bind fun _ => does_writeMembers

theorem does_addMember : L.Does n L.rules.Inv (addMember signal) fun _ => L.rules.Inv :=
  does_clearRemovals.bind fun _ => does_removedFrom.bind fun _ => does_writeMembers.bind fun _ => does_idle_outside

theorem does_memberRemoved : L.Does n L.rules.Inv (memberRemoved signal group) fun _ => L.rules.Inv := by
  unfold memberRemoved
  split
  · exact Program.triple_pure fun _ _ h => h
  · refine does_sessionUserId.bind fun userId => does_writeMembers.bind fun _ => ?_
    refine (Program.Triple.whenever (fun _ => does_writeAdmins) fun _ _ _ h => h).bind fun _ => ?_
    split
    · refine (does_outside fun s => ?_).bind fun _ => does_idle_outside
      exact (Phone.tame_patch signal.groupId (f := fun c => { c with isArchived := true }) fun _ => rfl).same s
    · exact does_idle_outside.bind fun _ => does_forget

theorem does_memberLeft : L.Does n L.rules.Inv (memberLeft signal group) fun _ => L.rules.Inv := by
  unfold memberLeft
  split
  · exact Program.triple_pure fun _ _ h => h
  · exact does_writeMembers.bind fun _ => does_writeAdmins.bind fun _ => does_forget.bind fun _ => does_idle_outside

theorem does_groupNotification : L.Does n L.rules.Inv (_groupNotification signal) fun _ => L.rules.Inv := by
  unfold _groupNotification
  refine Program.Triple.bind (Q := fun _ => L.rules.Inv) (does_getById.mono (fun _ _ h => h) fun _ _ _ h => h.2)
    fun c => ?_
  split
  · exact Program.triple_pure fun _ _ h => h
  · split
    · exact does_mergeGroup
    · exact Program.Triple.whenever (fun _ => does_addMember) fun _ _ _ h => h
    · exact Program.Triple.whenever (fun _ => does_memberRemoved) fun _ _ _ h => h
    · exact Program.Triple.whenever (fun _ => does_memberLeft) fun _ _ _ h => h
    · exact Program.triple_pure fun _ _ h => h

end Management

theorem does_program {n maxRetryCount : ℕ} (x : Call) :
    L.Does n L.rules.Inv (program maxRetryCount x) fun _ => L.rules.Inv := by
  cases x with
  | send g => exact does_call.bind fun _ => Program.triple_pure fun _ _ h => h
  | rotate g => exact does_rotate.bind fun _ => Program.triple_pure fun _ _ h => h
  | removeMember g id => exact does_removeMember
  | addMembers g ids => exact does_addMembers
  | control signal => exact does_groupNotification

/-- **The rule**: in every run that writes rosters and resets sessions only where the laws admit it, the device is
sound in every state. -/
theorem sound_run {maxRetryCount : ℕ} {s : Phone} {q : Tasks.State Bool Wait Phone Error Call}
    {ls : List (Pool.Label Call (Option Bool))} (hs : L.Sound s)
    (hm : Runs.Meets (tasks maxRetryCount).step (Pool.Moves (Tasks.Orderly L.rules)) ⟨s, []⟩ ls)
    (hr : Runs.run (tasks maxRetryCount).step ⟨s, []⟩ ls = some q) : L.Sound q.shared := by
  have hinv : L.rules.Inv q.shared (Task.labels q.threads) := by
    refine Tasks.holds_run (R := L.rules) ?_ ?_ ⟨hs, fun w hw => absurd hw List.not_mem_nil⟩ hm hr
    · exact fun s o o' ho h => ⟨h.1, fun w hw => h.2 w (ho.mem_iff.2 hw)⟩
    · intro x s o hi _
      refine (L.does_program x s o hi).imp fun r s o hr => ?_
      cases r with
      | ok a => exact hr
      | error e => exact hr
  exact hinv.1

end Laws

end GroupSending
end SecureChat
