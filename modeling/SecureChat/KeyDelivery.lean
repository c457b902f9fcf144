import SecureChat.RemovalSecrecy
/-!
# KeyDelivery — the key reaches a member before the message

The distribution of the sender key and the encryption of the message are two sections under the lock of the group.  A
reset may fall between them: the message is then encrypted in a session whose key nobody has been sent
(`reset_beforeEncryption`).  `readable_run` is the exact rule.
-/
namespace SecureChat
namespace GroupSending

open Async
open scoped GroupControl
open GroupControl (Text ConversationEntity)

def Keyed (outbox : List Event) (g r : Text) (message : GroupCiphertext) : Prop :=
  ∃ key t, key.Opens message ∧ Event.accepted ⟨g, r, .distribution key, t⟩ ∈ outbox

/-- **The key before the message**: what was sent before a message holds a key that opens it, to the same recipient. -/
def Readable : List Event → Prop
  | [] => True
  | .sent e _ :: outbox =>
    (∀ message, e.plaintext = .route message → Keyed outbox e.groupId e.recipientId message) ∧ Readable outbox
  | .accepted _ :: outbox => Readable outbox

def Stage.distributes : Stage → Bool
  | .distributing _ _ _ => true
  | _ => false

/-- The condition on a reset: no send of the group is between the distribution and the encryption. -/
def Undistributed (g : Text) (_ : Phone) (o : List Wait) : Prop :=
  ∀ w ∈ o, w.groupId = g → w.stage.distributes = false

instance (g : Text) (s : Phone) (o : List Wait) : Decidable (Undistributed g s o) :=
  inferInstanceAs (Decidable (∀ w ∈ o, w.groupId = g → w.stage.distributes = false))

/-- What a send relies on: the session of its key is stored and has not been reset, and whoever it has served, or has
wrapped the message for, has the key. -/
def Opened (s : Phone) (g : Text) : Stage → Prop
  | .distributing key _ served => s.device.groupSessions.stored.get g = some key.sessionId ∧
      key.index ≤ s.messageIndex key.sessionId ∧
      ∀ r ∈ served, ∃ t, Event.accepted ⟨g, r, .distribution key, t⟩ ∈ s.outbox
  | .routing message routed left => (∀ r ∈ left, Keyed s.outbox g r message) ∧
      ∀ e ∈ routed, ∀ m, e.plaintext = .route m → Keyed s.outbox e.groupId e.recipientId m
  | .fanningOut signals =>
      ∀ e ∈ signals, ∀ m, e.plaintext = .route m → Keyed s.outbox e.groupId e.recipientId m
  | _ => True

section Keys

variable {s s' : Phone} {g k : Text} {st : Stage} {ids : List Text}

theorem Keyed.mono {outbox outbox' : List Event} {r : Text} {message : GroupCiphertext}
    (h : Keyed outbox g r message) (hsub : outbox ⊆ outbox') : Keyed outbox' g r message := by
  obtain ⟨key, t, ho, hmem⟩ := h
  exact ⟨key, t, ho, hsub hmem⟩

theorem Opened.mono (h : Opened s g st)
    (hs : st.distributes = true → ∀ id, s.device.groupSessions.stored.get g = some id →
      s'.device.groupSessions.stored.get g = some id)
    (hi : ∀ id, s.messageIndex id ≤ s'.messageIndex id) (ho : s.outbox ⊆ s'.outbox) : Opened s' g st := by
  cases st with
  | outside => trivial
  | preparing rs => trivial
  | distributing key rs served =>
    refine ⟨hs rfl _ h.1, Nat.le_trans h.2.1 (hi _), fun r hr => ?_⟩
    obtain ⟨t, ht⟩ := h.2.2 r hr
    exact ⟨t, ho ht⟩
  | routing message routed left =>
    exact ⟨fun r hr => (h.1 r hr).mono ho, fun e he m hm => (h.2 e he m hm).mono ho⟩
  | fanningOut signals => exact fun e he m hm => (h e he m hm).mono ho
  | rotating rs => trivial

theorem opened_of_eq (h : Opened s g st) (hs : s'.device.groupSessions = s.device.groupSessions)
    (hi : s'.messageIndex = s.messageIndex) (ho : s.outbox ⊆ s'.outbox) : Opened s' g st :=
  h.mono (fun _ id hid => by rw [hs]; exact hid) (fun id => Nat.le_of_eq (congrFun hi id).symm) ho

theorem stored_withGroupSession {id : ℕ} (h : s.device.groupSessions.stored.get k = some id) :
    (s.withGroupSession g).1.device.groupSessions.stored.get k = some id := by
  show (s.device.groupSessions.withGroupSession g).1.stored.get k = some id
  unfold GroupControl.GroupSessions.withGroupSession
  split
  · exact h
  · rename_i hnone
    have hk : k ≠ g := by
      rintro rfl
      rw [hnone] at h
      cases h
    exact (Table.get_put_of_ne hk).trans h

theorem stored_opened : (s.withGroupSession g).1.device.groupSessions.stored.get g = some (s.withGroupSession g).2 := by
  show (s.device.groupSessions.withGroupSession g).1.stored.get g =
    some (s.device.groupSessions.withGroupSession g).2
  unfold GroupControl.GroupSessions.withGroupSession
  split
  · assumption
  · exact Table.get_put_self

theorem opened_of_stored {id : ℕ} (h : s.device.groupSessions.stored.get g = some id) : (s.withGroupSession g).2 = id :=
  GroupControl.GroupSessions.withGroupSession_of_stored h

theorem messageIndex_le_encryptGroup (id : ℕ) : s.messageIndex id ≤ (s.encryptGroup g).1.messageIndex id := by
  show s.messageIndex id ≤ Function.update s.messageIndex _ _ id
  by_cases hid : id = (s.withGroupSession g).2
  · subst hid
    rw [Function.update_self]
    exact Nat.le_succ _
  · exact Nat.le_of_eq (Function.update_of_ne hid _ _).symm

theorem Opened.encryptGroup (h : Opened s k st) : Opened (s.encryptGroup g).1 k st :=
  h.mono (fun _ _ hid => stored_withGroupSession hid) messageIndex_le_encryptGroup fun _ he => he

/-- **The message is opened by the key that was distributed**: its session is still the stored one. -/
theorem opens_encryptGroup {key : SenderKey} {rs served : List Text} (h : Opened s g (.distributing key rs served)) :
    key.Opens (s.encryptGroup g).2 := by
  have hid : (s.withGroupSession g).2 = key.sessionId := opened_of_stored h.1
  refine ⟨hid.symm, ?_⟩
  show key.index ≤ s.messageIndex (s.withGroupSession g).2
  rw [hid]
  exact h.2.1

theorem groupSessions_updateGroupMembers :
    (s.updateGroupMembers g ids).device.groupSessions = s.device.groupSessions := by
  unfold Phone.updateGroupMembers GroupControl.Device.updateGroupMembers GroupControl.Device.patch
  dsimp only
  split
  · rfl
  · rfl

theorem Opened.reset (h : Opened s k st) (hst : k = g → st.distributes = false) :
    Opened (s.resetLocalSenderKey g) k st := by
  refine h.mono (fun hd id hid => ?_) (fun _ => Nat.le_refl _) fun _ he => he
  have hk : k ≠ g := by
    rintro rfl
    rw [hst rfl] at hd
    cases hd
  exact (Table.get_remove_of_ne hk).trans hid

theorem readable_handOver {e : Envelope} (hs : Readable s.outbox)
    (he : ∀ message, e.plaintext = .route message → Keyed s.outbox e.groupId e.recipientId message) :
    Readable (s.handOver e).outbox := ⟨he, hs⟩

end Keys

def keyLaws : Laws where
  Sound s := Readable s.outbox
  Fact := Opened
  Writes _ _ _ _ := True
  Resets := Undistributed
  outside := trivial
  prepares _ _ := trivial
  rotates _ _ := trivial
  preparing_mono _ _ := trivial
  rotating_mono _ _ := trivial
  distributing_mono _ hk h := ⟨h.1, h.2.1, fun r hr => h.2.2 r (hk r hr)⟩
  same h hs := h.outbox ▸ hs
  same_fact h hf := opened_of_eq hf h.sessions h.index (by rw [h.outbox]; exact fun _ he => he)
  handOver_fact _ hf := opened_of_eq hf rfl rfl fun _ he => List.mem_cons_of_mem _ he
  accept _ hs := hs
  accept_fact _ hf := opened_of_eq hf rfl rfl fun _ he => List.mem_cons_of_mem _ he
  control hs _ _ := readable_handOver hs nofun
  key hs _ _ := readable_handOver hs nofun
  rotated hs _ _ := readable_handOver hs nofun
  held hs hf he := readable_handOver hs (hf _ he)
  served {s g key rs ks r t} hf := by
    refine ⟨hf.1, hf.2.1, fun x hx => ?_⟩
    rcases List.mem_cons.1 hx with rfl | hx
    · exact ⟨t, List.mem_cons_self⟩
    · obtain ⟨t', ht'⟩ := hf.2.2 x hx
      exact ⟨t', List.mem_cons_of_mem _ ht'⟩
  opens _ hs := hs
  opens_fact g hf := hf.mono (fun _ _ hid => stored_withGroupSession hid) (fun _ => Nat.le_refl _) fun _ he => he
  opens_own _ := ⟨stored_opened, Nat.le_refl _, nofun⟩
  encrypts _ hs := hs
  encrypts_fact _ hf := hf.encryptGroup
  encrypts_own {s g key rs} hf := by
    refine ⟨fun r hr => ?_, nofun⟩
    obtain ⟨t, ht⟩ := hf.2.2 r hr
    exact ⟨key, t, opens_encryptGroup hf, ht⟩
  route {s g message routed r rest} hf := by
    refine ⟨fun x hx => hf.1 x (List.mem_cons_of_mem _ hx), fun e he m hm => ?_⟩
    rcases List.mem_append.1 he with he | he
    · exact hf.2 e he m hm
    · cases List.mem_singleton.1 he
      cases hm
      exact hf.1 r List.mem_cons_self
  routed hf := hf.2
  write {s g ids o} hs ho _ := ⟨hs, fun w hw =>
    opened_of_eq (ho w hw) groupSessions_updateGroupMembers rfl fun _ he => he⟩
  reset hs ho hr := ⟨hs, fun w hw => (ho w hw).reset (hr w hw)⟩
  reset_own hf := hf.reset fun _ => rfl

/-- The condition on a step: a session that is reset is one that no send has distributed and not used yet. -/
def keyRules : Tasks.Rules Bool Wait Phone Call := keyLaws.rules

instance (w : Wait) (answer : Option Bool) (s : Phone) (o : List Wait) :
    Decidable (keyRules.Admitted w answer s o) :=
  keyLaws.decidableAdmitted (fun _ _ _ _ => inferInstanceAs (Decidable True)) (fun g s o => inferInstanceAs (Decidable (Undistributed g s o))) w answer s o

instance (x : Call) (s : Phone) (o : List Wait) : Decidable (keyRules.Starts x s o) :=
  inferInstanceAs (Decidable True)

/-- **The key before the message**, in every run of sends, rotations, removals and controls that resets a session only
where no send of the group is between the distribution and the encryption. -/
theorem readable_run {maxRetryCount : ℕ} {d : GroupControl.Device} {q : Tasks.State Bool Wait Phone Error Call}
    {ls : List (Pool.Label Call (Option Bool))}
    (hm : Runs.Meets (tasks maxRetryCount).step (Pool.Moves (Tasks.Orderly keyRules)) ⟨{ device := d }, []⟩ ls)
    (hr : Runs.run (tasks maxRetryCount).step ⟨{ device := d }, []⟩ ls = some q) : Readable q.shared.outbox :=
  keyLaws.sound_run (s := { device := d }) trivial hm hr

/-- The removal of Carl resets the session before Ann's send has distributed its key. -/
def removalInControls : List (Pool.Label Call (Option Bool)) :=
  sendSteps 10 ++ removalSteps ++ List.replicate 13 (.step 0 (some true))

theorem readable_removalInControls : ∃ q,
    Runs.run (tasks 0).step ⟨{ device := annsDevice }, []⟩ removalInControls = some q ∧
    q.shared.outbox.head? = some (.accepted ⟨"climbers".toList, "carl".toList, .route ⟨0, 0⟩, some 1⟩) ∧
    Readable q.shared.outbox := by
  obtain ⟨q, hq, hhead⟩ : ∃ q, Runs.run (tasks 0).step ⟨{ device := annsDevice }, []⟩ removalInControls = some q ∧
      q.shared.outbox.head? = some (.accepted ⟨"climbers".toList, "carl".toList, .route ⟨0, 0⟩, some 1⟩) :=
    Runs.exists_run _ _ _ (by decide +kernel)
  exact ⟨q, hq, hhead, readable_run (by decide +kernel) hq⟩

def distributed : Event → Option SenderKey
  | .accepted ⟨_, _, .distribution key, _⟩ => some key
  | _ => none

/-- **A reset before the encryption**: Bob is sent a message of the second session and has the key of the first. -/
theorem reset_beforeEncryption : ∃ q, Runs.run (tasks 0).step ⟨{ device := annsDevice }, []⟩
      (sendSteps 16 ++ removalSteps ++ List.replicate 4 (.step 0 (some true))) = some q ∧
    q.shared.outbox.head? = some (.sent ⟨"climbers".toList, "bob".toList, .route ⟨1, 0⟩, none⟩ none) ∧
    ¬ Readable q.shared.outbox := by
  obtain ⟨q, hq, hhead, hkeys⟩ : ∃ q, Runs.run (tasks 0).step ⟨{ device := annsDevice }, []⟩
      (sendSteps 16 ++ removalSteps ++ List.replicate 4 (.step 0 (some true))) = some q ∧
      q.shared.outbox.head? = some (.sent ⟨"climbers".toList, "bob".toList, .route ⟨1, 0⟩, none⟩ none) ∧
      ∀ event ∈ q.shared.outbox.tail, ∀ key ∈ distributed event, key = ⟨0, 0⟩ :=
    Runs.exists_run _ _ _ (by decide +kernel)
  refine ⟨q, hq, hhead, fun h => ?_⟩
  obtain ⟨outbox, hout⟩ : ∃ outbox, q.shared.outbox =
      .sent ⟨"climbers".toList, "bob".toList, .route ⟨1, 0⟩, none⟩ none :: outbox := by
    cases hq' : q.shared.outbox with
    | nil => rw [hq'] at hhead; cases hhead
    | cons event outbox =>
      rw [hq'] at hhead
      cases hhead
      exact ⟨outbox, rfl⟩
  rw [hout] at h hkeys
  obtain ⟨key, t, hopens, hmem⟩ := h.1 _ rfl
  cases hkeys _ hmem key (Option.mem_some.2 rfl)
  cases hopens.1

end GroupSending
end SecureChat
