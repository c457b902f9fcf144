import SecureChat.GroupSendRules
/-!
# RemovalSecrecy — what still reaches a removed member

A group send goes by the roster it read at its beginning.  A removal that falls between then and the last envelope it
encrypts does not stop it: the removed member is sent what is encrypted afterwards, the key of the new session with it
(`removal_beforeDistribution`).  `withheld_run` is the exact rule.
-/
namespace SecureChat
namespace GroupSending

open Async
open scoped GroupControl
open GroupControl (Text ConversationEntity)

/-- **Nothing new reaches a removed member**: what was handed over was encrypted while no removal of its recipient was
in force, and the session of a key existed before the removal that was in force as it was sent. -/
def Phone.Withheld (s : Phone) : Prop :=
  ∀ e t, Event.sent e t ∈ s.outbox → e.removedAt = none ∧
    ∀ key, e.plaintext = .distribution key → ∀ since, t = some since → s.createdAt key.sessionId < since

/-- The condition on the writing of a roster: it drops nobody for whom a call has still to encrypt something. -/
def Spares (g : Text) (ids : List Text) (s : Phone) (o : List Wait) : Prop :=
  ∀ w ∈ o, w.groupId = g → ∀ id ∈ w.stage.pending, ¬ s.Drops g ids id

instance (g : Text) (ids : List Text) (s : Phone) (o : List Wait) : Decidable (Spares g ids s o) :=
  inferInstanceAs (Decidable (∀ w ∈ o, w.groupId = g → ∀ id ∈ w.stage.pending, ¬ s.Drops g ids id))

def Stage.wrapped : Stage → List Envelope
  | .routing _ routed _ => routed
  | .fanningOut signals => signals
  | _ => []

/-- What a send relies on: nobody it has still to encrypt for has been removed, and what it has wrapped is no key. -/
structure Unremoved (s : Phone) (g : Text) (st : Stage) : Prop where
  pending : ∀ id ∈ st.pending, s.removedAt g id = none
  wrapped : ∀ e ∈ st.wrapped, e.removedAt = none ∧ ∀ key, e.plaintext ≠ .distribution key

/-- The invariant: who is on a roster is not removed, and keys were sent to members only. -/
structure Guarded (s : Phone) : Prop where
  roster : ∀ g, ∀ id ∈ s.roster g, s.removedAt g id = none
  sent : ∀ e t, Event.sent e t ∈ s.outbox → e.removedAt = none ∧ ∀ key, e.plaintext = .distribution key → t = none

theorem Guarded.withheld {s : Phone} (h : Guarded s) : s.Withheld := by
  intro e t he
  refine ⟨(h.sent e t he).1, fun key hkey since ht => ?_⟩
  rw [(h.sent e t he).2 key hkey] at ht
  cases ht

section Secrecy

variable {s s' : Phone} {g k : Text} {st : Stage} {ids : List Text} {id : Text} {e : Envelope}

theorem roster_updateGroupMembers_of_ne (hk : k ≠ g) : (s.updateGroupMembers g ids).roster k = s.roster k := by
  unfold Phone.roster Phone.updateGroupMembers GroupControl.Device.updateGroupMembers GroupControl.Device.patch
  dsimp only
  split
  · rfl
  · rw [Table.get_put_of_ne hk]

theorem removedAt_of_ne (hk : k ≠ g) : (s.updateGroupMembers g ids).removedAt k id = s.removedAt k id := if_pos hk

theorem removedAt_of_listed (h : id ∈ (s.updateGroupMembers g ids).roster g) :
    (s.updateGroupMembers g ids).removedAt g id = none := by
  show (if g ≠ g then _ else if id ∈ (s.updateGroupMembers g ids).roster g then _ else _) = none
  rw [if_neg (not_not.2 rfl), if_pos h]

theorem removedAt_of_kept (h : ¬ s.Drops g ids id) (hnone : s.removedAt g id = none) :
    (s.updateGroupMembers g ids).removedAt g id = none := by
  by_cases hlisted : id ∈ (s.updateGroupMembers g ids).roster g
  · exact removedAt_of_listed hlisted
  · show (if g ≠ g then _ else if id ∈ (s.updateGroupMembers g ids).roster g then _ else _) = none
    have hroster : ¬ id ∈ s.roster g := fun hr => h ⟨hr, hlisted⟩
    rw [if_neg (not_not.2 rfl), if_neg hlisted, if_neg hroster]
    exact hnone

theorem Guarded.updateGroupMembers (h : Guarded s) : Guarded (s.updateGroupMembers g ids) where
  roster k id hid := by
    by_cases hk : k = g
    · subst hk
      exact removedAt_of_listed hid
    · rw [removedAt_of_ne hk]
      rw [roster_updateGroupMembers_of_ne hk] at hid
      exact h.roster k id hid
  sent := h.sent

theorem Unremoved.updateGroupMembers (h : Unremoved s k st) (hs : k = g → ∀ id ∈ st.pending, ¬ s.Drops g ids id) :
    Unremoved (s.updateGroupMembers g ids) k st where
  pending id hid := by
    by_cases hk : k = g
    · subst hk
      exact removedAt_of_kept (hs rfl id hid) (h.pending id hid)
    · rw [removedAt_of_ne hk]
      exact h.pending id hid
  wrapped := h.wrapped

theorem Guarded.handOver (h : Guarded s) (he : e.removedAt = none)
    (hk : ∀ key, e.plaintext = .distribution key → s.removedAt e.groupId e.recipientId = none) :
    Guarded (s.handOver e) where
  roster := h.roster
  sent e' t hmem := by
    rcases List.mem_cons.1 hmem with heq | hmem
    · cases heq
      exact ⟨he, hk⟩
    · exact h.sent e' t hmem

theorem Guarded.handOver_pending (h : Guarded s) {plaintext : Plaintext} (hf : Unremoved s g st)
    (hid : id ∈ st.pending) : Guarded (s.handOver ⟨g, id, plaintext, s.removedAt g id⟩) :=
  h.handOver (hf.pending id hid) fun _ _ => hf.pending id hid

theorem Guarded.of_eq (h : Guarded s) (hr : ∀ k, s'.roster k = s.roster k) (ho : s'.outbox = s.outbox)
    (ha : s'.removedAt = s.removedAt) : Guarded s' where
  roster k id hid := by
    rw [ha]
    exact h.roster k id (hr k ▸ hid)
  sent e t he := h.sent e t (ho ▸ he)

theorem Unremoved.of_eq (h : Unremoved s g st) (ha : s'.removedAt = s.removedAt) : Unremoved s' g st :=
  ⟨fun id hid => by rw [ha]; exact h.pending id hid, h.wrapped⟩

theorem unremoved_of_roster (h : Guarded s) (hs : ∀ id ∈ st.pending, id ∈ s.roster g) (hw : st.wrapped = []) :
    Unremoved s g st :=
  ⟨fun id hid => h.roster g id (hs id hid), by rw [hw]; nofun⟩

end Secrecy

def removalLaws : Laws where
  Sound := Guarded
  Fact := Unremoved
  Writes := Spares
  Resets _ _ _ := True
  outside := ⟨nofun, nofun⟩
  prepares hs hr := unremoved_of_roster hs hr rfl
  rotates hs hr := unremoved_of_roster hs hr rfl
  preparing_mono hr h := ⟨fun id hid => h.pending id (hr id hid), nofun⟩
  rotating_mono hr h := ⟨fun id hid => h.pending id (hr id hid), nofun⟩
  distributing_mono hr _ h := ⟨fun id hid => h.pending id (hr id hid), nofun⟩
  same h hs := hs.of_eq h.members h.outbox h.removedAt
  same_fact h hf := hf.of_eq h.removedAt
  handOver_fact _ hf := ⟨hf.pending, hf.wrapped⟩
  accept e hs := ⟨hs.roster, fun e' t he => hs.sent e' t (by simpa [Phone.accept] using he)⟩
  accept_fact _ hf := ⟨hf.pending, hf.wrapped⟩
  control hs hf hr := hs.handOver_pending hf hr
  key hs hf hr := hs.handOver_pending hf hr
  rotated hs hf hr := hs.handOver_pending hf hr
  held hs hf he := hs.handOver (hf.wrapped _ he).1 fun key hk => absurd hk ((hf.wrapped _ he).2 key)
  served hf := ⟨hf.pending, nofun⟩
  opens _ hs := hs.of_eq (fun _ => rfl) rfl rfl
  opens_fact _ hf := hf.of_eq rfl
  opens_own hf := ⟨hf.pending, nofun⟩
  encrypts _ hs := hs.of_eq (fun _ => rfl) rfl rfl
  encrypts_fact _ hf := hf.of_eq rfl
  encrypts_own hf := ⟨hf.pending, nofun⟩
  route {s g message routed r rest} hf := by
    refine ⟨fun id hid => hf.pending id (List.mem_cons_of_mem _ hid), fun e he => ?_⟩
    rcases List.mem_append.1 he with he | he
    · exact hf.wrapped e he
    · cases List.mem_singleton.1 he
      exact ⟨hf.pending r List.mem_cons_self, nofun⟩
  routed hf := ⟨nofun, hf.wrapped⟩
  write hs ho hw := ⟨hs.updateGroupMembers, fun w hmem => (ho w hmem).updateGroupMembers (hw w hmem)⟩
  reset hs ho _ := ⟨hs.of_eq (fun _ => rfl) rfl rfl, fun w hw => (ho w hw).of_eq rfl⟩
  reset_own hf := hf.of_eq rfl

def removalRules : Tasks.Rules Bool Wait Phone Call := removalLaws.rules

instance (w : Wait) (answer : Option Bool) (s : Phone) (o : List Wait) :
    Decidable (removalRules.Admitted w answer s o) :=
  removalLaws.decidableAdmitted (fun g ids s o => inferInstanceAs (Decidable (Spares g ids s o))) (fun _ _ _ => inferInstanceAs (Decidable True)) w answer s o

instance (x : Call) (s : Phone) (o : List Wait) : Decidable (removalRules.Starts x s o) :=
  inferInstanceAs (Decidable True)

/-- **Nothing new reaches a removed member**, in every run of sends, rotations, removals and controls that writes
rosters only where they spare the members for whom something is still to be encrypted. -/
theorem withheld_run {maxRetryCount : ℕ} {d : GroupControl.Device} {q : Tasks.State Bool Wait Phone Error Call}
    {ls : List (Pool.Label Call (Option Bool))}
    (hm : Runs.Meets (tasks maxRetryCount).step (Pool.Moves (Tasks.Orderly removalRules)) ⟨{ device := d }, []⟩ ls)
    (hr : Runs.run (tasks maxRetryCount).step ⟨{ device := d }, []⟩ ls = some q) : q.shared.Withheld :=
  (removalLaws.sound_run (s := { device := d }) ⟨fun _ _ _ => rfl, nofun⟩ hm hr).withheld

def annsDevice : GroupControl.Device where
  userId := some "ann".toList
  conversations := Table.empty.put "climbers".toList
    { peerName := "climbers".toList
      isGroup := true
      groupMembers := some "ann,bob,carl".toList
      groupAdmins := some "ann".toList
      groupDescription := none
      groupPhoto := none
      isArchived := false
      isExportEnabled := false
      isReadOnly := false }
  cryptoState := .empty
  groupSessions := .empty

/-- The first `n` steps of Ann's send, of which the last awaits the answer to the next one. -/
def sendSteps (n : ℕ) : List (Pool.Label Call (Option Bool)) :=
  .start (.send "climbers".toList) :: List.replicate n (.step 0 (some true))

def removalSteps : List (Pool.Label Call (Option Bool)) :=
  .start (.removeMember "climbers".toList "carl".toList) :: List.replicate 6 (.step 1 (some true))

/-- A removal while the wrapped envelopes are handed over. -/
def removalInFanOut : List (Pool.Label Call (Option Bool)) :=
  sendSteps 20 ++ removalSteps ++ List.replicate 2 (.step 0 (some true))

theorem withheld_removalInFanOut : ∃ q, Runs.run (tasks 0).step ⟨{ device := annsDevice }, []⟩ removalInFanOut = some q ∧
    q.shared.outbox.head? =
      some (.accepted ⟨"climbers".toList, "carl".toList, .route ⟨0, 0⟩, none⟩) ∧
    q.shared.removedAt "climbers".toList "carl".toList = some 1 ∧ q.shared.Withheld := by
  obtain ⟨q, hq, hhead, hremoved⟩ : ∃ q, Runs.run (tasks 0).step ⟨{ device := annsDevice }, []⟩ removalInFanOut =
      some q ∧ q.shared.outbox.head? = some (.accepted ⟨"climbers".toList, "carl".toList, .route ⟨0, 0⟩, none⟩) ∧
      q.shared.removedAt "climbers".toList "carl".toList = some 1 :=
    Runs.exists_run _ _ _ (by decide +kernel)
  exact ⟨q, hq, hhead, hremoved, withheld_run (by decide +kernel) hq⟩

/-- **A removal before the distribution**: the key of the session that was created after it is sent to Carl. -/
theorem removal_beforeDistribution : ∃ q, Runs.run (tasks 0).step ⟨{ device := annsDevice }, []⟩
      (sendSteps 10 ++ removalSteps ++ List.replicate 4 (.step 0 (some true))) = some q ∧
    .sent ⟨"climbers".toList, "carl".toList, .distribution ⟨0, 0⟩, some 1⟩ (some 1) ∈ q.shared.outbox ∧
    q.shared.createdAt 0 = 1 ∧ ¬ q.shared.Withheld := by
  obtain ⟨q, hq, hsent, hcreated⟩ : ∃ q, Runs.run (tasks 0).step ⟨{ device := annsDevice }, []⟩
      (sendSteps 10 ++ removalSteps ++ List.replicate 4 (.step 0 (some true))) = some q ∧
      .sent ⟨"climbers".toList, "carl".toList, .distribution ⟨0, 0⟩, some 1⟩ (some 1) ∈ q.shared.outbox ∧
      q.shared.createdAt 0 = 1 :=
    Runs.exists_run _ _ _ (by decide +kernel)
  refine ⟨q, hq, hsent, hcreated, fun h => ?_⟩
  have hlt : q.shared.createdAt 0 < 1 := (h _ _ hsent).2 _ rfl _ rfl
  rw [hcreated] at hlt
  exact Nat.lt_irrefl _ hlt

end GroupSending
end SecureChat
