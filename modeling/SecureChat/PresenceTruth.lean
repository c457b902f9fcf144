import SecureChat.ConnectionPresence
import SecureChat.ThreadPool
/-!
# PresenceTruth — the last presence frame is true

A subscriber has been told the truth about a target, or a handler still owes it a frame (`Inv.told`).  A handler that
writes the presence of a user has it to itself (`Inv.alone`), so what it and the answers under way have read is still so
when their frames leave (`Fits`).  It breaks when a hidden user leaves from the foreground, which no frame says.
-/
namespace SecureChat
namespace Presence

open Manager

variable {U : Type}

def Handler.writes : Handler U → Option U
  | .leaving u | .leftForeground u | .leftAt u _ | .updatingForeground u _ _ | .updatingLastSeen u _
  | .announcing u _ _ => some u
  | .notifying frame _ _ => some frame.senderId
  | _ => none

def Handler.reads : Handler U → Option U
  | .responding _ t | .answering _ t _ _ => some t
  | .sending _ _ frame => some frame.senderId
  | _ => none

def Handler.busy (h : Handler U) : Option U := h.writes.or h.reads

def Handler.departs : Handler U → Option U
  | .leaving u | .leftForeground u | .leftAt u _ | .cleaning u => some u
  | .notifying frame _ true => some frame.senderId
  | _ => none

def Clash (g h : Handler U) : Prop :=
  ∃ u, (g.writes = some u ∧ h.busy = some u) ∨ (h.writes = some u ∧ g.busy = some u)

theorem Clash.symm {g h : Handler U} (hc : Clash g h) : Clash h g := by
  obtain ⟨u, hc⟩ := hc
  exact ⟨u, hc.symm⟩

theorem busy_of_writes {h : Handler U} {u : U} (hw : h.writes = some u) : h.busy = some u := by
  rw [Handler.busy, hw, Option.some_or]

def Manager.Online [DecidableEq U] (t : U) (s : Manager U) : Prop := s.connected t = true ∧ s.foregroundUsers t = true

def Handler.Fits (s : Manager U) : Handler U → Prop
  | .leaving u => s.hideLastSeenUsers u = true → s.foregroundUsers u = false
  | .leftForeground u | .leftAt u _ => s.foregroundUsers u = false
  | .updatingForeground u _ hide => s.hideLastSeenUsers u = hide
  | .updatingLastSeen u hide => s.hideLastSeenUsers u = hide ∧ s.foregroundUsers u = false
  | .announcing u isOnline hide => s.hideLastSeenUsers u = hide ∧ s.foregroundUsers u = isOnline
  | .answering _ t _ isOnline => s.foregroundUsers t = isOnline
  | .notifying f _ _ | .sending _ _ f => s.foregroundUsers f.senderId = f.isOnline ∧
      (s.hideLastSeenUsers f.senderId = true → f.lastSeen = 0)
  | _ => True

/-- The handler still has to tell `v` about `t`. -/
def Handler.Owes (s : Manager U) (v t : U) : Handler U → Prop
  | .leaving u | .leftForeground u | .leftAt u _ => u = t ∧ s.hideLastSeenUsers t = false
  | .updatingForeground u _ _ | .updatingLastSeen u _ | .announcing u _ _ => u = t
  | .notifying f rest _ => f.senderId = t ∧ v ∈ rest
  | .responding w u | .answering w u _ _ => w = v ∧ u = t
  | .sending w _ f => w = v ∧ f.senderId = t
  | _ => False

theorem Handler.Owes.busy {s : Manager U} {v t : U} {h : Handler U} (ho : h.Owes s v t) : h.busy = some t := by
  cases h with
  | leaving u | leftForeground u | leftAt u => rw [← ho.1]; rfl
  | updatingForeground u | updatingLastSeen u | announcing u => rw [← (show u = t from ho)]; rfl
  | notifying f rest cleans => rw [← ho.1]; rfl
  | responding w u | answering w u | sending w n f => rw [← ho.2]; rfl
  | _ => exact ho.elim

theorem Handler.Fits.congr {s s' : Manager U} {h : Handler U} (hf : h.Fits s)
    (hs : ∀ u, h.busy = some u → s'.foregroundUsers u = s.foregroundUsers u ∧
      s'.hideLastSeenUsers u = s.hideLastSeenUsers u) : h.Fits s' := by
  cases h with
  | leaving u =>
    obtain ⟨h1, h2⟩ := hs u rfl
    intro hh
    rw [h1]
    exact hf (h2 ▸ hh)
  | leftForeground u | leftAt u now => exact (hs u rfl).1.trans hf
  | updatingForeground u b hide => exact (hs u rfl).2.trans hf
  | updatingLastSeen u hide => exact ⟨(hs u rfl).2.trans hf.1, (hs u rfl).1.trans hf.2⟩
  | announcing u b hide => exact ⟨(hs u rfl).2.trans hf.1, (hs u rfl).1.trans hf.2⟩
  | answering w t n b => exact (hs t rfl).1.trans hf
  | notifying f rest cleans =>
    obtain ⟨h1, h2⟩ := hs f.senderId rfl
    exact ⟨h1.trans hf.1, fun hh => hf.2 (h2 ▸ hh)⟩
  | sending w n f =>
    obtain ⟨h1, h2⟩ := hs f.senderId rfl
    exact ⟨h1.trans hf.1, fun hh => hf.2 (h2 ▸ hh)⟩
  | _ => trivial

theorem Handler.Owes.congr {s s' : Manager U} {v t : U} {h : Handler U} (ho : h.Owes s v t)
    (hs : s'.hideLastSeenUsers t = s.hideLastSeenUsers t) : h.Owes s' v t := by
  cases h with
  | leaving u | leftForeground u | leftAt u now => exact ⟨ho.1, hs.trans ho.2⟩
  | _ => exact ho

variable [DecidableEq U]

/-- The last frame that `v` has about `t` states whether `t` is in the foreground. -/
def Manager.Told (s : Manager U) (v t : U) : Prop := ∀ f, s.lastFrame v t = some f → f.isOnline = s.foregroundUsers t

/-- **What every run keeps whose steps meet the condition.** -/
structure Inv (s : Manager U) (ts : List (Handler U)) : Prop where
  fits : ∀ h ∈ ts, h.Fits s
  alone : ts.Pairwise fun g h => ¬ Clash g h
  foreground : ∀ t, s.foregroundUsers t = true → s.connected t = true ∨ .leaving t ∈ ts
  subscribed : ∀ v t, v ∈ s.subscribers t → s.connected v = true ∨ ∃ h ∈ ts, h.departs = some v
  told : ∀ v t, v ∈ s.subscribers t → s.connected v = true → (∀ h ∈ ts, h.departs ≠ some v) →
    s.Told v t ∨ ∃ h ∈ ts, h.Owes s v t
  hidden : ∀ x ∈ s.frames, x.hidden = true → x.frame.lastSeen = 0

/-- **The condition under which presence frames are true.**  A user that hides last-seen does not lose its connection in
the foreground; it is put in the foreground while it has a connection; its updates and departures exclude one another
and the answers about it; a subscriber is added while it has a connection; and no frame to a connected user is lost. -/
def Calm (s : Manager U) (h : Handler U) (e : Reading) (o : List (Handler U)) : Prop :=
  match h with
  | .disconnecting u session => ((s.connections u).remove session).1 = true →
      (∀ g ∈ o, g.busy ≠ some u) ∧ ¬(s.hideLastSeenUsers u = true ∧ s.foregroundUsers u = true)
  | .updating u _ _ => ∀ g ∈ o, g.busy ≠ some u
  | .updatingForeground u isOnline _ => isOnline = true → s.connected u = true
  | .adding v t => (∀ g ∈ o, g.writes ≠ some t) ∧ s.connected v = true
  | .sending v session _ => (s.connections v).current = some session ∧ e.lost = false
  | .notifying _ (v :: _) _ => s.connected v = true → e.lost = false
  | _ => True

instance (s : Manager U) (h : Handler U) (e : Reading) (o : List (Handler U)) : Decidable (Calm s h e o) :=
  match h with
  | .disconnecting u session => inferInstanceAs (Decidable (((s.connections u).remove session).1 = true →
      (∀ g ∈ o, g.busy ≠ some u) ∧ ¬(s.hideLastSeenUsers u = true ∧ s.foregroundUsers u = true)))
  | .updating u _ _ => inferInstanceAs (Decidable (∀ g ∈ o, g.busy ≠ some u))
  | .updatingForeground u isOnline _ => inferInstanceAs (Decidable (isOnline = true → s.connected u = true))
  | .adding v t => inferInstanceAs (Decidable ((∀ g ∈ o, g.writes ≠ some t) ∧ s.connected v = true))
  | .sending v session _ => inferInstanceAs (Decidable ((s.connections v).current = some session ∧ e.lost = false))
  | .notifying _ (v :: _) _ => inferInstanceAs (Decidable (s.connected v = true → e.lost = false))
  | .notifying _ [] _ | .connecting .. | .leaving _ | .leftForeground _ | .leftAt .. | .cleaning _
  | .updatingLastSeen .. | .announcing .. | .subscribing .. | .responding .. | .answering .. | .unsubscribing ..
  | .finished => inferInstanceAs (Decidable True)

/-! ## What the operations on the maps do -/

section Operations

variable {s : Manager U} {u v t : U}

theorem connected_setConnections (c : Connections) :
    (s.setConnections u c).connected v = if v = u then c.current.isSome else s.connected v := by
  unfold connected setConnections
  simp only
  by_cases hv : v = u
  · rw [hv, Function.update_self, if_pos rfl]
  · rw [Function.update_of_ne hv, if_neg hv]

theorem mem_addSubscriber {w : U} :
    w ∈ (s.addSubscriber v t).subscribers u ↔ w ∈ s.subscribers u ∨ (u = t ∧ w = v) := by
  unfold addSubscriber subscribers
  rw [Table.get_put]
  by_cases hu : u = t
  · subst hu
    simp
  · simp [hu]

theorem mem_removeSubscriber {w : U} (h : w ∈ (s.removeSubscriber v t).subscribers u) : w ∈ s.subscribers u := by
  unfold removeSubscriber at h
  split at h
  · exact h
  · rename_i set hset
    unfold subscribers at h ⊢
    by_cases hu : u = t
    · subst hu
      rw [hset]
      simp only at h
      split at h
      · rw [Table.get_remove_self] at h
        cases h
      · rw [Table.get_put_self] at h
        exact (LinkedSet.mem_erase.1 h).1
    · simp only at h
      split at h
      · rw [Table.get_remove_of_ne hu] at h
        exact h
      · rw [Table.get_put_of_ne hu] at h
        exact h

theorem mem_cleanupSubscriptions {w : U} :
    w ∈ (s.cleanupSubscriptions v).subscribers u ↔ w ∈ s.subscribers u ∧ w ≠ v := by
  unfold cleanupSubscriptions subscribers
  simp only [Table.get_filterMapValues]
  cases s.presenceSubscribers.get u with
  | none => simp
  | some set => simp

theorem lastFrame_deliver (w : U) (f : Frame U) :
    (s.deliver w f).lastFrame v t = if w = v ∧ f.senderId = t then some f else s.lastFrame v t := by
  unfold lastFrame deliver
  simp only [List.find?_cons]
  by_cases h : w = v ∧ f.senderId = t
  · simp [h]
  · simp [h]

end Operations


/-! ## The steps -/

section Steps

variable {s s' : Manager U} {h h' : Handler U} {o : List (Handler U)} {e : Reading}

theorem Inv.clash (hi : Inv s (h :: o)) {g : Handler U} (hg : g ∈ o) : ¬ Clash h g :=
  (List.pairwise_cons.1 hi.alone).1 g hg

/-- What a step has to show: the handler that moves fits, the others see no difference in what they are busy with, and
whoever is told nothing now is told by the handler later. -/
theorem Inv.next (hi : Inv s (h :: o)) (hfits : h'.Fits s')
    (hothers : ∀ g ∈ o, ∀ u, g.busy = some u → s'.foregroundUsers u = s.foregroundUsers u ∧
      s'.hideLastSeenUsers u = s.hideLastSeenUsers u)
    (halone : ∀ g ∈ o, ¬ Clash h' g)
    (hforeground : ∀ t, s'.foregroundUsers t = true → s'.connected t = true ∨ h' = .leaving t ∨ .leaving t ∈ o)
    (hsubscribed : ∀ v t, v ∈ s'.subscribers t → s'.connected v = true ∨ h'.departs = some v ∨
      ∃ g ∈ o, g.departs = some v)
    (htold : ∀ v t, v ∈ s'.subscribers t → s'.connected v = true → h'.departs ≠ some v →
      (∀ g ∈ o, g.departs ≠ some v) → (∀ g ∈ o, ¬ g.Owes s v t) → s'.Told v t ∨ h'.Owes s' v t)
    (hhidden : ∀ x ∈ s'.frames, x.hidden = true → x.frame.lastSeen = 0) : Inv s' (h' :: o) where
  fits g hg := by
    rcases List.mem_cons.1 hg with rfl | hg
    · exact hfits
    · exact (hi.fits g (List.mem_cons_of_mem _ hg)).congr (hothers g hg)
  alone := List.pairwise_cons.2 ⟨halone, (List.pairwise_cons.1 hi.alone).2⟩
  foreground t ht := by
    rcases hforeground t ht with hc | rfl | hg
    · exact .inl hc
    · exact .inr List.mem_cons_self
    · exact .inr (List.mem_cons_of_mem _ hg)
  subscribed v t hv := by
    rcases hsubscribed v t hv with hc | hd | ⟨g, hg, hd⟩
    · exact .inl hc
    · exact .inr ⟨h', List.mem_cons_self, hd⟩
    · exact .inr ⟨g, List.mem_cons_of_mem _ hg, hd⟩
  told v t hv hc hd := by
    by_cases ho : ∃ g ∈ o, g.Owes s v t
    · obtain ⟨g, hg, ho⟩ := ho
      refine .inr ⟨g, List.mem_cons_of_mem _ hg, ho.congr ?_⟩
      exact (hothers g hg t ho.busy).2
    · have hno : ∀ g ∈ o, ¬ g.Owes s v t := fun g hg hgo => ho ⟨g, hg, hgo⟩
      rcases htold v t hv hc (hd h' List.mem_cons_self) (fun g hg => hd g (List.mem_cons_of_mem _ hg)) hno with ht | ht
      · exact .inl ht
      · exact .inr ⟨h', List.mem_cons_self, ht⟩
  hidden := hhidden

theorem Inv.told_or_owes (hi : Inv s (h :: o)) {v t : U} (hv : v ∈ s.subscribers t) (hc : s.connected v = true)
    (hd : h.departs ≠ some v) (hds : ∀ g ∈ o, g.departs ≠ some v) (hno : ∀ g ∈ o, ¬ g.Owes s v t) :
    s.Told v t ∨ h.Owes s v t := by
  have hall : ∀ g ∈ h :: o, g.departs ≠ some v := by
    intro g hg
    rcases List.mem_cons.1 hg with rfl | hg
    · exact hd
    · exact hds g hg
  rcases hi.told v t hv hc hall with ht | ⟨g, hg, ho⟩
  · exact .inl ht
  · rcases List.mem_cons.1 hg with rfl | hg
    · exact .inr ho
    · exact absurd ho (hno g hg)

theorem Inv.foreground_or (hi : Inv s (h :: o)) {t : U} (ht : s.foregroundUsers t = true) :
    s.connected t = true ∨ h = .leaving t ∨ .leaving t ∈ o := by
  rcases hi.foreground t ht with hc | hg
  · exact .inl hc
  · rcases List.mem_cons.1 hg with hg | hg
    · exact .inr (.inl hg.symm)
    · exact .inr (.inr hg)

theorem Inv.subscribed_or (hi : Inv s (h :: o)) {v t : U} (hv : v ∈ s.subscribers t) :
    s.connected v = true ∨ h.departs = some v ∨ ∃ g ∈ o, g.departs = some v := by
  rcases hi.subscribed v t hv with hc | ⟨g, hg, hd⟩
  · exact .inl hc
  · rcases List.mem_cons.1 hg with rfl | hg
    · exact .inr (.inl hd)
    · exact .inr (.inr ⟨g, hg, hd⟩)

theorem Inv.same (hi : Inv s (h :: o)) (hfits : h'.Fits s) (hwrites : ∀ u, h'.writes = some u → h.writes = some u)
    (hbusy : ∀ u, h'.busy = some u → h.busy = some u) (hleaving : ∀ t, h ≠ .leaving t)
    (hdeparts : ∀ v, h.departs = some v → h'.departs = some v)
    (howes : ∀ v t, v ∈ s.subscribers t → s.connected v = true → h.Owes s v t → s.Told v t ∨ h'.Owes s v t) :
    Inv s (h' :: o) := by
  refine hi.next hfits (fun _ _ _ _ => ⟨rfl, rfl⟩) (fun g hg hc => hi.clash hg ?_) (fun t ht => ?_) (fun v t hv => ?_)
    (fun v t hv hc hd hds hno => ?_) hi.hidden
  · obtain ⟨u, hc⟩ := hc
    rcases hc with ⟨hw, hb⟩ | ⟨hw, hb⟩
    · exact ⟨u, .inl ⟨hwrites u hw, hb⟩⟩
    · exact ⟨u, .inr ⟨hw, hbusy u hb⟩⟩
  · rcases hi.foreground_or ht with hc | hl | hg
    · exact .inl hc
    · exact absurd hl (hleaving t)
    · exact .inr (.inr hg)
  · rcases hi.subscribed_or hv with hc | hd | hg
    · exact .inl hc
    · exact .inr (.inl (hdeparts v hd))
    · exact .inr (.inr hg)
  · have hd' : h.departs ≠ some v := fun hdv => hd (hdeparts v hdv)
    rcases hi.told_or_owes hv hc hd' hds hno with ht | ho
    · exact .inl ht
    · exact howes v t hv hc ho

theorem Inv.setLastSeen (hi : Inv s o) (u : U) (now : ℕ) : Inv (s.setLastSeen u now) o :=
  ⟨hi.fits, hi.alone, hi.foreground, hi.subscribed, hi.told, hi.hidden⟩

theorem Inv.finish (hi : Inv s (h :: o)) (hleaving : ∀ t, h ≠ .leaving t) (hdeparts : h.departs = none)
    (howes : ∀ v t, v ∈ s.subscribers t → s.connected v = true → ¬ h.Owes s v t) : Inv s (.finished :: o) := by
  refine hi.same trivial (fun u hu => ?_) (fun u hu => ?_) hleaving (fun v hv => ?_) fun v t hv hc ho =>
    absurd ho (howes v t hv hc)
  · cases hu
  · cases hu
  · rw [hdeparts] at hv
    cases hv

theorem Inv.notify (hi : Inv s (h :: o)) {f : Frame U} {cleans : Bool} (hw : h.writes = some f.senderId)
    (hfits : s.foregroundUsers f.senderId = f.isOnline ∧
      (s.hideLastSeenUsers f.senderId = true → f.lastSeen = 0)) (hleaving : ∀ t, h ≠ .leaving t)
    (hdeparts : ∀ v, h.departs = some v → cleans = true ∧ f.senderId = v)
    (howes : ∀ v t, h.Owes s v t → f.senderId = t) : Inv s (s.notifyPresenceChange f cleans :: o) := by
  refine hi.same hfits (fun u hu => ?_) (fun u hu => ?_) hleaving (fun v hv => ?_) fun v t hv _ ho => ?_
  · cases hu
    exact hw
  · cases hu
    exact busy_of_writes hw
  · obtain ⟨rfl, rfl⟩ := hdeparts v hv
    rfl
  · obtain rfl := howes v t ho
    exact .inr ⟨rfl, hv⟩

theorem Inv.deliver (hi : Inv s (h :: o)) {v : U} {f : Frame U}
    (hfits : s.foregroundUsers f.senderId = f.isOnline ∧ (s.hideLastSeenUsers f.senderId = true → f.lastSeen = 0)) :
    Inv (s.deliver v f) (h :: o) := by
  refine hi.next ((hi.fits h List.mem_cons_self).congr fun _ _ => ⟨rfl, rfl⟩) (fun _ _ _ _ => ⟨rfl, rfl⟩)
    (fun g hg => hi.clash hg) (fun t ht => hi.foreground_or ht) (fun w t hw => hi.subscribed_or hw)
    (fun w t hw hc hd hds hno => ?_) fun x hx hh => ?_
  · by_cases hvt : v = w ∧ f.senderId = t
    · obtain ⟨rfl, rfl⟩ := hvt
      refine .inl fun f' hf' => ?_
      rw [lastFrame_deliver, if_pos ⟨rfl, rfl⟩, Option.some.injEq] at hf'
      subst hf'
      exact hfits.1.symm
    · rcases hi.told_or_owes hw hc hd hds hno with ht | ho
      · refine .inl fun f' hf' => ?_
        rw [lastFrame_deliver, if_neg hvt] at hf'
        exact ht f' hf'
      · exact .inr (ho.congr rfl)
  · rcases List.mem_cons.1 hx with rfl | hx
    · exact hfits.2 hh
    · exact hi.hidden x hx hh

theorem told_deliver {v : U} {f : Frame U} (hf : s.foregroundUsers f.senderId = f.isOnline) :
    (s.deliver v f).Told v f.senderId := by
  intro f' hf'
  rw [lastFrame_deliver, if_pos ⟨rfl, rfl⟩, Option.some.injEq] at hf'
  subst hf'
  exact hf.symm

theorem inv_notifying {f : Frame U} {v : U} {rest : List U} {cleans : Bool}
    (hi : Inv s (.notifying f (v :: rest) cleans :: o)) (hok : Calm s (.notifying f (v :: rest) cleans) e o)
    (hs : s.exec (.notifying f (v :: rest) cleans) e = some (s', h')) : Inv s' (h' :: o) := by
  have hfits := hi.fits _ List.mem_cons_self
  have hdeparts : ∀ w, (Handler.notifying f (v :: rest) cleans).departs = some w →
      (Handler.notifying f rest cleans).departs = some w := fun w hw => by
    cases cleans with
    | true => exact hw
    | false => cases hw
  simp only [exec] at hs
  split at hs
  · rename_i hc
    cases hs
    refine (hi.deliver (v := v) hfits).same hfits (fun _ h => h) (fun _ h => h) nofun hdeparts fun w t _ _ ho => ?_
    obtain ⟨rfl, hw⟩ := ho
    rcases List.mem_cons.1 hw with rfl | hw
    · exact .inl (told_deliver hfits.1)
    · exact .inr ⟨rfl, hw⟩
  · rename_i hc
    cases hs
    refine hi.same hfits (fun _ h => h) (fun _ h => h) nofun hdeparts fun w t _ hw ho => ?_
    obtain ⟨rfl, hmem⟩ := ho
    rcases List.mem_cons.1 hmem with rfl | hmem
    · exact absurd ⟨hw, hok hw⟩ hc
    · exact .inr ⟨rfl, hmem⟩

theorem inv_sending {v : U} {n : ℕ} {f : Frame U} (hi : Inv s (.sending v n f :: o))
    (hok : Calm s (.sending v n f) e o) (hs : s.exec (.sending v n f) e = some (s', h')) : Inv s' (h' :: o) := by
  have hfits := hi.fits _ List.mem_cons_self
  have hok : (s.connections v).current = some n ∧ e.lost = false := hok
  simp only [exec, if_pos hok] at hs
  cases hs
  refine (hi.deliver (v := v) hfits).same trivial nofun nofun nofun nofun fun w t _ _ ho => .inl ?_
  obtain ⟨rfl, rfl⟩ := ho
  exact told_deliver hfits.1

theorem inv_connecting {u : U} {n : ℕ} {c : Bool} (hi : Inv s (.connecting u n c :: o))
    (hs : s.exec (.connecting u n c) e = some (s', h')) : Inv s' (h' :: o) := by
  simp only [exec] at hs
  split at hs
  · cases hs
    exact hi.finish nofun rfl fun _ _ _ _ => id
  · rename_i previous c' hc'
    cases hs
    have hcurrent : c'.current.isSome = true := by rw [Connections.current_admitSession hc']; rfl
    have hmono : ∀ v, s.connected v = true → (s.setConnections u c').connected v = true := fun v hv => by
      rw [connected_setConnections]
      split
      · exact hcurrent
      · exact hv
    refine hi.next trivial (fun _ _ _ _ => ⟨rfl, rfl⟩) (fun g hg => ?_) (fun t ht => ?_) (fun v t hv => ?_)
      (fun v t hv hc hd hds hno => ?_) hi.hidden
    · rintro ⟨w, ⟨hw, -⟩ | ⟨-, hw⟩⟩
      · cases hw
      · cases hw
    · rcases hi.foreground_or ht with h | h | h
      · exact .inl (hmono t h)
      · cases h
      · exact .inr (.inr h)
    · rcases hi.subscribed_or hv with h | h | h
      · exact .inl (hmono v h)
      · cases h
      · exact .inr (.inr h)
    · have hbefore : s.connected v = true := by
        rcases hi.subscribed_or hv with h | h | ⟨g, hg, hgd⟩
        · exact h
        · cases h
        · exact absurd hgd (hds g hg)
      rcases hi.told_or_owes hv hbefore nofun hds hno with ht | ho
      · exact .inl ht
      · exact ho.elim

theorem inv_disconnecting {u : U} {session : Option ℕ} (hi : Inv s (.disconnecting u session :: o))
    (hok : Calm s (.disconnecting u session) e o) (hs : s.exec (.disconnecting u session) e = some (s', h')) :
    Inv s' (h' :: o) := by
  simp only [exec] at hs
  split at hs
  · rename_i hr
    cases hs
    obtain ⟨hbusy, hfg⟩ := hok hr
    have hnone : ((s.connections u).remove session).2.current = none := by
      unfold Connections.remove at hr ⊢
      split at hr
      · cases hr
      · split at hr
        · rename_i hif
          simp only [hif, if_true]
        · cases hr
    have hconn : ∀ v, (s.setConnections u ((s.connections u).remove session).2).connected v = true →
        s.connected v = true ∧ v ≠ u := fun v hv => by
      rw [connected_setConnections] at hv
      split at hv
      · rw [hnone] at hv
        cases hv
      · rename_i hne
        exact ⟨hv, hne⟩
    have hconn' : ∀ v, v ≠ u → s.connected v = true →
        (s.setConnections u ((s.connections u).remove session).2).connected v = true := fun v hne hv => by
      rw [connected_setConnections, if_neg hne]
      exact hv
    refine hi.next (fun hh => ?_) (fun _ _ _ _ => ⟨rfl, rfl⟩) (fun g hg => ?_) (fun t ht => ?_) (fun v t hv => ?_)
      (fun v t hv hc hd hds hno => ?_) hi.hidden
    · by_contra hf
      rw [Bool.not_eq_false] at hf
      exact hfg ⟨hh, hf⟩
    · rintro ⟨w, ⟨hw, hb⟩ | ⟨hw, hb⟩⟩
      · cases hw
        exact hbusy g hg hb
      · cases hb
        exact hbusy g hg (busy_of_writes hw)
    · by_cases htu : t = u
      · exact .inr (.inl (by rw [htu]))
      · rcases hi.foreground_or ht with h | h | h
        · exact .inl (hconn' t htu h)
        · cases h
        · exact .inr (.inr h)
    · by_cases hvu : v = u
      · exact .inr (.inl (by rw [hvu]; rfl))
      · rcases hi.subscribed_or hv with h | h | h
        · exact .inl (hconn' v hvu h)
        · cases h
        · exact .inr (.inr h)
    · obtain ⟨hc, hvu⟩ := hconn v hc
      rcases hi.told_or_owes hv hc nofun hds hno with ht | ho
      · exact .inl ht
      · exact ho.elim
  · cases hs
    exact hi.finish nofun rfl fun _ _ _ _ => id

/-- The steps that change the presence of a user that no other handler is busy with: the others see no difference. -/
theorem Inv.write (hi : Inv s (h :: o)) {u : U} (hbusy : ∀ g ∈ o, g.busy ≠ some u)
    (hconnections : s'.connections = s.connections) (hsubscribers : s'.presenceSubscribers = s.presenceSubscribers)
    (hframes : s'.frames = s.frames)
    (hothers : ∀ v, v ≠ u → s'.foregroundUsers v = s.foregroundUsers v ∧
      s'.hideLastSeenUsers v = s.hideLastSeenUsers v)
    (hfits : h'.Fits s') (hb : h'.busy = some u) (hd : h'.departs = h.departs)
    (hforeground : s'.foregroundUsers u = true → s.connected u = true)
    (hleaving : ∀ t, h = .leaving t → t = u)
    (howes : ∀ v t, h.Owes s v t → t = u)
    (htold : ∀ v, v ∈ s.subscribers u → s.Told v u ∨ h.Owes s v u → s'.Told v u ∨ h'.Owes s' v u) :
    Inv s' (h' :: o) := by
  have hconn : ∀ v, s'.connected v = s.connected v := fun v => by
    unfold connected
    rw [hconnections]
  have hsubs : ∀ t, s'.subscribers t = s.subscribers t := fun t => by
    unfold subscribers
    rw [hsubscribers]
  have hlast : ∀ v t, s'.lastFrame v t = s.lastFrame v t := fun v t => by
    unfold lastFrame
    rw [hframes]
  have hne : ∀ {g : Handler U} {v : U}, g ∈ o → g.busy = some v → v ≠ u := fun hg hv heq =>
    hbusy _ hg (heq ▸ hv)
  refine hi.next hfits (fun g hg v hv => hothers v (hne hg hv)) (fun g hg => ?_) (fun t ht => ?_) (fun v t hv => ?_)
    (fun v t hv hc hd' hds hno => ?_) fun x hx hh => hi.hidden x (hframes ▸ hx) hh
  · rintro ⟨w, ⟨hw, hgb⟩ | ⟨hw, hgb⟩⟩
    · rw [busy_of_writes hw, Option.some.injEq] at hb
      exact hne hg hgb hb
    · rw [hgb, Option.some.injEq] at hb
      exact hne hg (busy_of_writes hw) hb
  · rw [hconn]
    by_cases htu : t = u
    · subst htu
      exact .inl (hforeground ht)
    · rw [(hothers t htu).1] at ht
      rcases hi.foreground_or ht with h | h | h
      · exact .inl h
      · exact absurd (hleaving t h) htu
      · exact .inr (.inr h)
  · rw [hsubs] at hv
    rw [hconn, hd]
    exact hi.subscribed_or hv
  · rw [hsubs] at hv
    rw [hconn] at hc
    rw [hd] at hd'
    have hbefore := hi.told_or_owes hv hc hd' hds hno
    by_cases htu : t = u
    · subst htu
      exact htold v hv hbefore
    · refine .inl ?_
      rcases hbefore with ht | ho
      · intro f hf
        rw [hlast] at hf
        rw [(hothers t htu).1]
        exact ht f hf
      · exact absurd (howes v t ho) htu

theorem Inv.subscriptions (hi : Inv s (h :: o)) (hconnections : s'.connections = s.connections)
    (hforeground : s'.foregroundUsers = s.foregroundUsers) (hhide : s'.hideLastSeenUsers = s.hideLastSeenUsers)
    (hframes : s'.frames = s.frames) (hfits : h'.Fits s') (halone : ∀ g ∈ o, ¬ Clash h' g)
    (hleaving : ∀ t, h ≠ .leaving t) (howes : ∀ v t, ¬ h.Owes s v t)
    (hsubs : ∀ v t, v ∈ s'.subscribers t → (v ∈ s.subscribers t ∧ h.departs ≠ some v) ∨
      s.connected v = true ∧ h'.Owes s' v t) : Inv s' (h' :: o) := by
  have hconn : ∀ v, s'.connected v = s.connected v := fun v => by
    unfold connected
    rw [hconnections]
  refine hi.next hfits (fun g _ v _ => ⟨by rw [hforeground], by rw [hhide]⟩) halone (fun t ht => ?_) (fun v t hv => ?_)
    (fun v t hv hc hd hds hno => ?_) fun x hx hh => hi.hidden x (hframes ▸ hx) hh
  · rw [hforeground] at ht
    rw [hconn]
    rcases hi.foreground_or ht with h | h | h
    · exact .inl h
    · exact absurd h (hleaving t)
    · exact .inr (.inr h)
  · rw [hconn]
    rcases hsubs v t hv with ⟨hv, hne⟩ | ⟨hc, -⟩
    · rcases hi.subscribed_or hv with h | h | h
      · exact .inl h
      · exact absurd h hne
      · exact .inr (.inr h)
    · exact .inl hc
  · rw [hconn] at hc
    rcases hsubs v t hv with ⟨hv, hne⟩ | ⟨-, ho⟩
    · rcases hi.told_or_owes hv hc hne hds hno with ht | ho
      · refine .inl fun f hf => ?_
        rw [hforeground]
        refine ht f ?_
        rw [← hf]
        unfold lastFrame
        rw [hframes]
      · exact absurd ho (howes v t)
    · exact .inr ho

theorem Inv.sole (hi : Inv s (h :: o)) {u : U} (hw : h.writes = some u) : ∀ g ∈ o, g.busy ≠ some u := fun _ hg hb =>
  hi.clash hg ⟨u, .inl ⟨hw, hb⟩⟩

theorem inv_leaving {u : U} (hi : Inv s (.leaving u :: o)) (hs : s.exec (.leaving u) e = some (s', h')) :
    Inv s' (h' :: o) := by
  have hfits := hi.fits _ List.mem_cons_self
  cases hs
  refine hi.write (hi.sole rfl) rfl rfl rfl (fun v hv => ⟨Function.update_of_ne hv _ _, rfl⟩)
    (Function.update_self u _ _) rfl rfl (fun hf => ?_) (fun t ht => ?_) (fun v t ho => ho.1.symm)
    fun v _ hbefore => ?_
  · have hf : Function.update s.foregroundUsers u false u = true := hf
    rw [Function.update_self] at hf
    cases hf
  · cases ht
    rfl
  · rcases hbefore with ht | ho
    · cases hh : s.hideLastSeenUsers u with
      | false => exact .inr ⟨rfl, hh⟩
      | true =>
        refine .inl fun f hf => ?_
        show f.isOnline = Function.update s.foregroundUsers u false u
        rw [Function.update_self, ← hfits hh]
        exact ht f hf
    · exact .inr ho

theorem inv_leftAt {u : U} {now} (hi : Inv s (.leftAt u now :: o)) (hs : s.exec (.leftAt u now) e = some (s', h')) :
    Inv s' (h' :: o) := by
  have hfits := hi.fits _ List.mem_cons_self
  simp only [exec] at hs
  split at hs
  · rename_i hh
    cases hs
    refine hi.same trivial nofun nofun nofun (fun _ h => h) fun v t _ _ ho => ?_
    obtain ⟨rfl, ho⟩ := ho
    rw [hh] at ho
    cases ho
  · rename_i hh
    cases hs
    refine hi.notify rfl ⟨hfits, fun hh' => absurd hh' hh⟩ nofun (fun v hv => ?_) fun v t ho => ho.1
    cases hv
    exact ⟨rfl, rfl⟩

theorem inv_cleaning {u : U} (hi : Inv s (.cleaning u :: o)) (hs : s.exec (.cleaning u) e = some (s', h')) :
    Inv s' (h' :: o) := by
  cases hs
  refine hi.subscriptions rfl rfl rfl rfl trivial (fun g hg => ?_) nofun (fun _ _ => id) fun v t hv => ?_
  · rintro ⟨w, ⟨hw, -⟩ | ⟨-, hw⟩⟩
    · cases hw
    · cases hw
  · obtain ⟨hv, hne⟩ := mem_cleanupSubscriptions.1 hv
    refine .inl ⟨hv, fun hd => hne ?_⟩
    cases hd
    rfl

theorem inv_updating {u : U} {isOnline hide} (hi : Inv s (.updating u isOnline hide :: o))
    (hok : Calm s (.updating u isOnline hide) e o) (hs : s.exec (.updating u isOnline hide) e = some (s', h')) :
    Inv s' (h' :: o) := by
  cases hs
  refine hi.write hok rfl rfl rfl (fun v hv => ⟨rfl, Function.update_of_ne hv _ _⟩) (Function.update_self u _ _) rfl
    rfl (fun hf => ?_) nofun (fun _ _ ho => ho.elim) fun v _ _ => .inr rfl
  rcases hi.foreground_or hf with h | h | h
  · exact h
  · cases h
  · exact absurd rfl (hok _ h)

theorem inv_updatingForeground {u : U} {isOnline hide} (hi : Inv s (.updatingForeground u isOnline hide :: o))
    (hok : Calm s (.updatingForeground u isOnline hide) e o)
    (hs : s.exec (.updatingForeground u isOnline hide) e = some (s', h')) : Inv s' (h' :: o) := by
  have hfits := hi.fits _ List.mem_cons_self
  have hothers : ∀ v, v ≠ u → Function.update s.foregroundUsers u isOnline v = s.foregroundUsers v ∧
      s.hideLastSeenUsers v = s.hideLastSeenUsers v := fun v hv => ⟨Function.update_of_ne hv _ _, rfl⟩
  have hself : Function.update s.foregroundUsers u isOnline u = isOnline := Function.update_self u _ _
  simp only [exec] at hs
  cases isOnline with
  | true =>
    cases hs
    exact hi.write (hi.sole rfl) rfl rfl rfl hothers ⟨hfits, hself⟩ rfl rfl (fun _ => hok rfl) nofun
      (fun v t ho => ho.symm) fun v _ _ => .inr rfl
  | false =>
    cases hs
    refine hi.write (hi.sole rfl) rfl rfl rfl hothers ⟨hfits, hself⟩ rfl rfl (fun hf => ?_) nofun
      (fun v t ho => ho.symm) fun v _ _ => .inr rfl
    have hf : Function.update s.foregroundUsers u false u = true := hf
    rw [hself] at hf
    cases hf

theorem inv_announcing {u : U} {isOnline hide} (hi : Inv s (.announcing u isOnline hide :: o))
    (hs : s.exec (.announcing u isOnline hide) e = some (s', h')) : Inv s' (h' :: o) := by
  have hfits := hi.fits _ List.mem_cons_self
  simp only [exec] at hs
  split at hs
  · cases hs
    exact hi.notify rfl ⟨hfits.2, fun _ => rfl⟩ nofun nofun fun v t ho => ho
  · rename_i hh
    cases hs
    refine hi.notify rfl ⟨hfits.2, fun hh' => absurd ?_ hh⟩ nofun nofun fun v t ho => ho
    rw [← hfits.1]
    exact hh'

theorem inv_adding {v t : U} (hi : Inv s (.adding v t :: o)) (hok : Calm s (.adding v t) e o)
    (hs : s.exec (.adding v t) e = some (s', h')) : Inv s' (h' :: o) := by
  cases hs
  obtain ⟨hwrites, hconn⟩ := hok
  refine hi.subscriptions rfl rfl rfl rfl trivial (fun g hg => ?_) nofun (fun _ _ => id) fun w u hw => ?_
  · rintro ⟨u, ⟨hw, -⟩ | ⟨hw, hb⟩⟩
    · cases hw
    · cases hb
      exact hwrites g hg hw
  · rcases mem_addSubscriber.1 hw with hw | ⟨rfl, rfl⟩
    · exact .inl ⟨hw, nofun⟩
    · exact .inr ⟨hconn, rfl, rfl⟩

theorem inv_responding {v t : U} (hi : Inv s (.responding v t :: o)) (hs : s.exec (.responding v t) e = some (s', h')) :
    Inv s' (h' :: o) := by
  simp only [exec] at hs
  split at hs
  · rename_i hnone
    cases hs
    refine hi.finish nofun rfl fun w u _ hc ho => ?_
    obtain ⟨rfl, rfl⟩ := ho
    unfold connected at hc
    rw [hnone] at hc
    cases hc
  · cases hs
    exact hi.same rfl nofun (fun _ h => h) nofun nofun fun _ _ _ _ ho => .inr ho

theorem inv_answering {v t : U} {n isOnline} (hi : Inv s (.answering v t n isOnline :: o))
    (hs : s.exec (.answering v t n isOnline) e = some (s', h')) : Inv s' (h' :: o) := by
  have hfits := hi.fits _ List.mem_cons_self
  simp only [exec] at hs
  split at hs
  · cases hs
    exact hi.same ⟨hfits, fun _ => rfl⟩ nofun (fun _ h => h) nofun nofun fun _ _ _ _ ho => .inr ho
  · rename_i hh
    cases hs
    exact hi.same ⟨hfits, fun hh' => absurd hh' hh⟩ nofun (fun _ h => h) nofun nofun fun _ _ _ _ ho => .inr ho

theorem inv_unsubscribing {v t : U} (hi : Inv s (.unsubscribing v t :: o))
    (hs : s.exec (.unsubscribing v t) e = some (s', h')) : Inv s' (h' :: o) := by
  cases hs
  have hview : (s.removeSubscriber v t).connections = s.connections ∧
      (s.removeSubscriber v t).foregroundUsers = s.foregroundUsers ∧
      (s.removeSubscriber v t).hideLastSeenUsers = s.hideLastSeenUsers ∧
      (s.removeSubscriber v t).frames = s.frames := by
    unfold removeSubscriber
    split
    · exact ⟨rfl, rfl, rfl, rfl⟩
    · exact ⟨rfl, rfl, rfl, rfl⟩
  obtain ⟨h1, h2, h3, h4⟩ := hview
  refine hi.subscriptions h1 h2 h3 h4 trivial (fun g hg => ?_) nofun (fun _ _ => id) fun w u hw => ?_
  · rintro ⟨w, ⟨hw, -⟩ | ⟨-, hw⟩⟩
    · cases hw
    · cases hw
  · exact .inl ⟨mem_removeSubscriber hw, nofun⟩

theorem inv_exec (hi : Inv s (h :: o)) (hok : Calm s h e o) (hs : s.exec h e = some (s', h')) : Inv s' (h' :: o) := by
  have hfits := hi.fits h List.mem_cons_self
  cases h with
  | connecting u n c => exact inv_connecting hi hs
  | disconnecting u session => exact inv_disconnecting hi hok hs
  | leaving u => exact inv_leaving hi hs
  | leftForeground u =>
    cases hs
    have hi' : Inv s (.leftAt u e.now :: o) :=
      hi.same hfits (fun _ h => h) (fun _ h => h) nofun (fun _ h => h) fun _ _ _ _ ho => .inr ho
    exact hi'.setLastSeen u e.now
  | leftAt u now => exact inv_leftAt hi hs
  | cleaning u => exact inv_cleaning hi hs
  | updating u isOnline hide => exact inv_updating hi hok hs
  | updatingForeground u isOnline hide => exact inv_updatingForeground hi hok hs
  | updatingLastSeen u hide =>
    cases hs
    have hi' : Inv s (.announcing u false hide :: o) :=
      hi.same hfits (fun _ h => h) (fun _ h => h) nofun (fun _ h => h) fun _ _ _ _ ho => .inr ho
    exact hi'.setLastSeen u e.now
  | announcing u isOnline hide => exact inv_announcing hi hs
  | notifying f rest cleans =>
    cases rest with
    | cons v rest => exact inv_notifying hi hok hs
    | nil =>
      cases hs
      cases cleans with
      | true => exact hi.same trivial nofun nofun nofun (fun _ h => h) fun _ _ _ _ ho => absurd ho.2 List.not_mem_nil
      | false => exact hi.finish nofun rfl fun _ _ _ _ ho => absurd ho.2 List.not_mem_nil
  | subscribing v t =>
    simp only [exec] at hs
    split at hs
    · cases hs
      exact hi.finish nofun rfl fun _ _ _ _ => id
    · cases hs
      exact hi.same trivial nofun nofun nofun nofun fun _ _ _ _ ho => ho.elim
  | adding v t => exact inv_adding hi hok hs
  | responding v t => exact inv_responding hi hs
  | answering v t n isOnline => exact inv_answering hi hs
  | sending v n f => exact inv_sending hi hok hs
  | unsubscribing v t => exact inv_unsubscribing hi hs
  | finished => cases hs

end Steps

theorem inv_perm (s : Manager U) (ts ts' : List (Handler U)) (hp : List.Perm ts ts') (hi : Inv s ts) : Inv s ts' where
  fits h hh := hi.fits h (hp.mem_iff.2 hh)
  alone := (hp.pairwise_iff fun hgh hhg => hgh hhg.symm).1 hi.alone
  foreground t ht := (hi.foreground t ht).imp id hp.mem_iff.1
  subscribed v t hv := (hi.subscribed v t hv).imp id fun ⟨h, hh, hd⟩ => ⟨h, hp.mem_iff.1 hh, hd⟩
  told v t hv hc hd := (hi.told v t hv hc fun h hh => hd h (hp.mem_iff.1 hh)).imp id
    fun ⟨h, hh, ho⟩ => ⟨h, hp.mem_iff.1 hh, ho⟩
  hidden := hi.hidden

theorem inv_spawn (s : Manager U) (ts : List (Handler U)) (r : Request U) (hi : Inv s ts) : Inv s (spawn r :: ts) := by
  have hw : (spawn r).busy = none ∧ (spawn r).departs = none ∧ (spawn r).Fits s := by
    cases r with
    | _ => exact ⟨rfl, rfl, trivial⟩
  refine ⟨fun h hh => ?_, List.pairwise_cons.2 ⟨fun g hg => ?_, hi.alone⟩, fun t ht => ?_, fun v t hv => ?_,
    fun v t hv hc hd => ?_, hi.hidden⟩
  · rcases List.mem_cons.1 hh with rfl | hh
    · exact hw.2.2
    · exact hi.fits h hh
  · rintro ⟨u, ⟨hu, -⟩ | ⟨-, hu⟩⟩
    · have := busy_of_writes hu
      rw [hw.1] at this
      cases this
    · rw [hw.1] at hu
      cases hu
  · exact (hi.foreground t ht).imp id (List.mem_cons_of_mem _)
  · exact (hi.subscribed v t hv).imp id fun ⟨h, hh, hd⟩ => ⟨h, List.mem_cons_of_mem _ hh, hd⟩
  · exact (hi.told v t hv hc fun h hh => hd h (List.mem_cons_of_mem _ hh)).imp id
      fun ⟨h, hh, ho⟩ => ⟨h, List.mem_cons_of_mem _ hh, ho⟩

theorem inv_init : Inv (Manager.init : Manager U) [] where
  fits := nofun
  alone := List.Pairwise.nil
  foreground _ ht := by cases ht
  subscribed _ _ hv := by cases hv
  told _ _ hv := by cases hv
  hidden := nofun

/-- The server before its first connection. -/
def start : Pool (Manager U) (Handler U) := ⟨Manager.init, []⟩

def Quiescent (p : Pool (Manager U) (Handler U)) : Prop := ∀ h ∈ p.threads, h = .finished

/-- **Presence frames are truthful**, in every run whose steps meet the condition.  Where no handler is under way, the
last frame that a connected subscriber has received about a target says that it is online exactly if it has a connection
in the foreground, and no frame about a target that hid last-seen carries a last-seen time. -/
theorem presence_run {p : Pool (Manager U) (Handler U)} {ls : List (Pool.Label (Request U) Reading)}
    (hr : Runs.run (Pool.step spawn exec) start ls = some p)
    (hm : Runs.Meets (Pool.step spawn exec) (Pool.Moves Calm) start ls) :
    (Quiescent p → ∀ v t f, p.shared.connected v = true → v ∈ p.shared.subscribers t → p.shared.lastFrame v t = some f →
      (f.isOnline = true ↔ p.shared.Online t)) ∧
    ∀ x ∈ p.shared.frames, x.hidden = true → x.frame.lastSeen = 0 := by
  have hexec : ∀ (s : Manager U) (h : Handler U) (e : Reading) (o : List (Handler U)) (s' : Manager U) (h' : Handler U),
      Inv s (h :: o) → Calm s h e o → exec s h e = some (s', h') → Inv s' (h' :: o) :=
    fun s h e o s' h' hi hok hs => inv_exec hi hok hs
  have hi : Inv p.shared p.threads := Pool.invariant Inv inv_perm inv_spawn hexec inv_init hm hr
  refine ⟨fun hq v t f hc hv hf => ?_, hi.hidden⟩
  have hnot : ∀ h ∈ p.threads, h.departs ≠ some v := fun h hh hd => by
    rw [hq h hh] at hd
    cases hd
  have htold : f.isOnline = p.shared.foregroundUsers t := by
    rcases hi.told v t hv hc hnot with ht | ⟨h, hh, ho⟩
    · exact ht f hf
    · rw [hq h hh] at ho
      exact ho.elim
  constructor
  · intro ht
    rw [htold] at ht
    rcases hi.foreground t ht with hc | hl
    · exact ⟨hc, ht⟩
    · have := hq _ hl
      cases this
  · intro ht
    rw [htold]
    exact ht.2

/-- The steps of thread `i` to its end. -/
def alone (i n : ℕ) (r : Request ℕ) : List (Pool.Label (Request ℕ) Reading) :=
  .start r :: List.replicate n (.step i ⟨100, 0, false⟩)

def watched (hideLastSeen : Bool) : List (Pool.Label (Request ℕ) Reading) :=
  alone 0 1 (.addConnection 1 10 true) ++ alone 1 1 (.addConnection 2 20 true) ++
    alone 2 5 (.subscribePresence 2 1) ++ alone 3 5 (.handlePresenceUpdate 1 true hideLastSeen)

instance (p : Pool (Manager ℕ) (Handler ℕ)) : Decidable (Quiescent p) :=
  inferInstanceAs (Decidable (∀ h ∈ p.threads, h = .finished))

theorem presence_departure : ∃ p, Runs.run (Pool.step spawn exec) start
      (watched false ++ alone 4 7 (.removeConnection 1 (some 10))) = some p ∧
    p.shared.lastFrame 2 1 = some ⟨1, none, 100, false, 100, false⟩ ∧ ¬ p.shared.Online 1 := by
  obtain ⟨p, hp, hq, hc, hs, hf⟩ : ∃ p, Runs.run (Pool.step spawn exec) start
        (watched false ++ alone 4 7 (.removeConnection 1 (some 10))) = some p ∧
      Quiescent p ∧ p.shared.connected 2 = true ∧ 2 ∈ p.shared.subscribers 1 ∧
      p.shared.lastFrame 2 1 = some ⟨1, none, 100, false, 100, false⟩ :=
    Runs.exists_run _ _ _ (by decide +kernel)
  refine ⟨p, hp, hf, fun hon => ?_⟩
  have htrue := ((presence_run hp (by decide +kernel)).1 hq 2 1 _ hc hs hf).2 hon
  cases htrue

/-- **A hidden user that leaves from the foreground**: the last frame its subscriber has says that it is online. -/
theorem presence_hiddenDeparture : ∃ p, Runs.run (Pool.step spawn exec) start
      (watched true ++ alone 4 5 (.removeConnection 1 (some 10))) = some p ∧
    Quiescent p ∧ p.shared.connected 2 = true ∧ 2 ∈ p.shared.subscribers 1 ∧
    p.shared.lastFrame 2 1 = some ⟨1, none, 100, true, 0, true⟩ ∧ p.shared.connected 1 = false :=
  Runs.exists_run _ _ _ (by decide +kernel)

end Presence
end SecureChat
