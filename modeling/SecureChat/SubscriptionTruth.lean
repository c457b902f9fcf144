import SecureChat.PresenceSubscriptions
/-!
# SubscriptionTruth — the stored subscribers are those that asked for it last

What a call of a user relies on is which sets the user is in, and only the user's own calls change that
(`Same`), so each call keeps what it has found out (`Fits`).  A set with members is in the map (`Sound.live`), so what
is in a set is stored; and a set without members that is in the map has a call that will add to it or drop it
(`Sound.minded`).
-/
namespace SecureChat
namespace Subscriptions

open Server

variable {U : Type}

/-! ## A user's own sets -/

/-- A user is not in more than `n` targets' sets. -/
def AtMost (n : ℕ) (u : U) (s : Server U) : Prop :=
  ∀ l : List U, l.Nodup → (∀ t ∈ l, ∃ k, u ∈ s.sets t k) → l.length ≤ n

structure Settled (u : U) (s : Server U) : Prop where
  agrees : ∀ t, (∃ k, u ∈ s.sets t k) ↔ s.subscribed u t = true
  linked : ∀ t, s.subscribed u t = true → s.connected u = true

structure Same (u : U) (s s' : Server U) : Prop where
  sets : ∀ t k, u ∈ s'.sets t k ↔ u ∈ s.sets t k
  subscribed : s'.subscribed u = s.subscribed u
  connected : s.connected u = true → s'.connected u = true

theorem Same.refl (u : U) (s : Server U) : Same u s s := ⟨fun _ _ => Iff.rfl, rfl, id⟩

theorem Same.atMost {u : U} {s s' : Server U} {n : ℕ} (h : Same u s s') (ha : AtMost n u s) : AtMost n u s' :=
  fun l hl hstored => ha l hl fun t ht => (hstored t ht).imp fun k hk => (h.sets t k).1 hk

theorem Same.settled {u : U} {s s' : Server U} (h : Same u s s') (hs : Settled u s) : Settled u s' where
  agrees t := by
    rw [h.subscribed, ← hs.agrees t]
    exact exists_congr (h.sets t)
  linked t ht := h.connected (hs.linked t (by rw [← h.subscribed]; exact ht))

theorem AtMost.mono {u : U} {s : Server U} {m n : ℕ} (h : AtMost m u s) (hmn : m ≤ n) : AtMost n u s :=
  fun l hl hstored => Nat.le_trans (h l hl hstored) hmn

section Sets

variable [DecidableEq U] {s s' : Server U} {u v t : U} {k : ℕ}

theorem sets_setMembers (t' : U) (k' : ℕ) (members : LinkedSet U) :
    (s.setMembers t k members).sets t' k' = if t' = t ∧ k' = k then members else s.sets t' k' := by
  unfold setMembers
  by_cases ht : t' = t
  · subst ht
    by_cases hk : k' = k
    · subst hk
      simp
    · simp [hk]
  · simp [ht]

theorem same_setMembers {members : LinkedSet U} (h : v ∈ members ↔ v ∈ s.sets t k) :
    Same v s (s.setMembers t k members) where
  sets t' k' := by
    rw [sets_setMembers]
    split
    · rename_i heq
      obtain ⟨rfl, rfl⟩ := heq
      exact h
    · exact Iff.rfl
  subscribed := rfl
  connected := id

theorem same_setSubscribed {b : Bool} (h : v ≠ u) : Same v s (s.setSubscribed u t b) where
  sets _ _ := Iff.rfl
  subscribed := Function.update_of_ne h _ _
  connected := id

omit [DecidableEq U] in
theorem Same.trans {s'' : Server U} (h : Same v s s') (h' : Same v s' s'') : Same v s s'' where
  sets t k := (h'.sets t k).trans (h.sets t k)
  subscribed := h'.subscribed.trans h.subscribed
  connected := fun hc => h'.connected (h.connected hc)

theorem mem_add {t' : U} {k' : ℕ} {b : Bool} :
    u ∈ ((s.setMembers t k ((s.sets t k).insert u)).setSubscribed u t b).sets t' k' ↔
      u ∈ s.sets t' k' ∨ t' = t ∧ k' = k := by
  show u ∈ (s.setMembers t k ((s.sets t k).insert u)).sets t' k' ↔ _
  rw [sets_setMembers]
  split
  · rename_i heq
    simp [LinkedSet.mem_insert, heq.1, heq.2]
  · rename_i hne
    exact ⟨.inl, fun h => h.resolve_right hne⟩

theorem mem_remove {t' : U} {k' : ℕ} :
    u ∈ (s.setMembers t k ((s.sets t k).erase u)).sets t' k' ↔ u ∈ s.sets t' k' ∧ ¬ (t' = t ∧ k' = k) := by
  rw [sets_setMembers]
  split
  · rename_i heq
    rw [LinkedSet.mem_erase]
    exact ⟨fun h => absurd rfl h.2, fun h => absurd heq h.2⟩
  · rename_i hne
    exact ⟨fun h => ⟨h, hne⟩, fun h => h.1⟩

theorem setSubscribed_self (b : Bool) : (s.setSubscribed u t b).subscribed u t = b := by
  simp [setSubscribed]

theorem setSubscribed_of_ne {t' : U} (h : t' ≠ t) (b : Bool) :
    (s.setSubscribed u t b).subscribed u t' = s.subscribed u t' := by
  simp [setSubscribed, h]

end Sets

/-! ## What a call has found out -/

variable [DecidableEq U]

def Call.Fits (s : Server U) : Call U → Prop
  | .counting u _ due seen count => Settled u s ∧ s.connected u = true ∧
    (∀ t k, u ∈ s.sets t k → (t, k) ∈ due ∨ (t, k) ∈ seen) ∧
    seen.countP (fun x => decide (u ∈ s.sets x.1 x.2)) ≤ count
  | .looking u _ | .creating u _ | .adding u _ _ => Settled u s ∧ s.connected u = true ∧
    AtMost (Presence.maxPresenceSubscriptions - 1) u s
  | .removing u t k => Settled u s ∧ ∀ k', u ∈ s.sets t k' → k' = k
  | .checking u _ _ | .dropping u _ _ => Settled u s
  | .cleaning u due _ => ∀ t k, u ∈ s.sets t k → (t, k) ∈ due
  | _ => True

theorem Call.Fits.same {c : Call U} {s s' : Server U} (h : c.Fits s) (hsame : ∀ u, c.user = some u → Same u s s') :
    c.Fits s' := by
  cases c with
  | connecting | subscribing | unsubscribing | disconnecting | finished | leaving => trivial
  | counting u t due seen count =>
    have hu := hsame u rfl
    obtain ⟨hsettled, hconn, hfound, hcount⟩ := h
    refine ⟨hu.settled hsettled, hu.connected hconn, fun t k hk => hfound t k ((hu.sets t k).1 hk), ?_⟩
    refine Nat.le_trans (Nat.le_of_eq (List.countP_congr fun x _ => ?_)) hcount
    rw [decide_eq_true_eq, decide_eq_true_eq]
    exact hu.sets x.1 x.2
  | looking u | creating u | adding u =>
    have hu := hsame u rfl
    exact ⟨hu.settled h.1, hu.connected h.2.1, hu.atMost h.2.2⟩
  | removing u t k =>
    have hu := hsame u rfl
    exact ⟨hu.settled h.1, fun k' hk' => h.2 k' ((hu.sets t k').1 hk')⟩
  | checking u | dropping u => exact (hsame u rfl).settled h
  | cleaning u due seen => exact fun t k hk => h t k (((hsame u rfl).sets t k).1 hk)

def Call.Minds (t : U) (k : ℕ) : Call U → Prop
  | .adding _ t' k' | .checking _ t' k' | .dropping _ t' k' => t = t' ∧ k = k'
  | _ => False

structure Sound (s : Server U) (cs : List (Call U)) : Prop where
  live : ∀ t k u, u ∈ s.sets t k → s.presenceSubscribers.get t = some k
  old : ∀ t k, s.presenceSubscribers.get t = some k → k < s.created
  adds : ∀ c ∈ cs, ∀ x, c.adds = some x → s.presenceSubscribers.get x.1 = some x.2
  minded : ∀ t k, s.presenceSubscribers.get t = some k → (s.sets t k).elems = [] → ∃ c ∈ cs, c.Minds t k

structure Orderly (s : Server U) (cs : List (Call U)) : Prop where
  fits : ∀ c ∈ cs, c.Fits s
  single : (cs.filterMap Call.user).Nodup
  settled : ∀ u, (∀ c ∈ cs, c.user ≠ some u) → Settled u s
  capped : ∀ u, AtMost Presence.maxPresenceSubscriptions u s

theorem Sound.perm {s : Server U} {cs cs' : List (Call U)} (hp : cs.Perm cs') (h : Sound s cs) : Sound s cs' where
  live := h.live
  old := h.old
  adds _ hc := h.adds _ (hp.mem_iff.2 hc)
  minded t k hk he := (h.minded t k hk he).imp fun _ hc => ⟨hp.mem_iff.1 hc.1, hc.2⟩

theorem Orderly.perm {s : Server U} {cs cs' : List (Call U)} (hp : cs.Perm cs') (h : Orderly s cs) : Orderly s cs' where
  fits _ hc := h.fits _ (hp.mem_iff.2 hc)
  single := (hp.filterMap _).nodup_iff.1 h.single
  settled u hu := h.settled u fun _ hc => hu _ (hp.mem_iff.1 hc)
  capped := h.capped

omit [DecidableEq U] in
theorem user_spawn (r : Request U) : (spawn r).user = none := by
  cases r with
  | _ => rfl

theorem Sound.spawn {s : Server U} {cs : List (Call U)} (h : Sound s cs) (r : Request U) : Sound s (spawn r :: cs) where
  live := h.live
  old := h.old
  adds c hc x hx := by
    rcases List.mem_cons.1 hc with rfl | hc
    · cases r with
      | _ => cases hx
    · exact h.adds c hc x hx
  minded t k hk he := (h.minded t k hk he).imp fun c hc => ⟨List.mem_cons_of_mem _ hc.1, hc.2⟩

theorem Orderly.spawn {s : Server U} {cs : List (Call U)} (h : Orderly s cs) (r : Request U) :
    Orderly s (spawn r :: cs) where
  fits c hc := by
    rcases List.mem_cons.1 hc with rfl | hc
    · cases r with
      | _ => trivial
    · exact h.fits c hc
  single := by
    rw [List.filterMap_cons_none (user_spawn r)]
    exact h.single
  settled u hu := h.settled u fun c hc => hu c (List.mem_cons_of_mem _ hc)
  capped := h.capped

section Steps

attribute [local simp] exec

variable {s s' : Server U} {c c' : Call U} {o : List (Call U)} {u : U}

/-- **A step of a call of `u`**, or one of no user: the other users find what they had. -/
theorem Orderly.step (h : Orderly s (c :: o)) {a : Option U} (hc : c.user = none ∨ c.user = a)
    (hc' : c'.user = none ∨ c'.user = a) (halone : ∀ u, a = some u → Alone u o)
    (hsame : ∀ v, a ≠ some v → Same v s s') (hfits : c'.Fits s')
    (hown : ∀ u, a = some u → AtMost Presence.maxPresenceSubscriptions u s' ∧ (c'.user = none → Settled u s')) :
    Orderly s' (c' :: o) where
  fits d hd := by
    rcases List.mem_cons.1 hd with rfl | hd
    · exact hfits
    · refine (h.fits d (List.mem_cons_of_mem c hd)).same fun v hv => hsame v fun ha => ?_
      exact halone v ha d hd hv
  single := by
    have hrest : (o.filterMap Call.user).Nodup := by
      have hall := h.single
      cases hu : c.user with
      | none =>
        rw [List.filterMap_cons_none hu] at hall
        exact hall
      | some v =>
        rw [List.filterMap_cons_some hu] at hall
        exact (List.nodup_cons.1 hall).2
    cases hu : c'.user with
    | none =>
      rw [List.filterMap_cons_none hu]
      exact hrest
    | some v =>
      rw [List.filterMap_cons_some hu]
      refine List.nodup_cons.2 ⟨fun hmem => ?_, hrest⟩
      obtain ⟨d, hd, hv⟩ := List.mem_filterMap.1 hmem
      have ha : a = some v := by
        rcases hc' with hnone | ha
        · rw [hu] at hnone
          cases hnone
        · exact ha.symm.trans hu
      exact halone v ha d hd hv
  settled v hv := by
    by_cases ha : a = some v
    · refine (hown v ha).2 (hc'.resolve_right fun hua => ?_)
      exact hv c' List.mem_cons_self (hua.trans ha)
    · refine (hsame v ha).settled (h.settled v fun d hd => ?_)
      rcases List.mem_cons.1 hd with rfl | hd
      · intro hdv
        rcases hc with hnone | hca
        · rw [hnone] at hdv
          cases hdv
        · exact ha (hca.symm.trans hdv)
      · exact hv d (List.mem_cons_of_mem c' hd)
  capped v := by
    by_cases ha : a = some v
    · exact (hown v ha).1
    · exact (hsame v ha).atMost (h.capped v)

theorem Orderly.alone (h : Orderly s (c :: o)) (hu : c.user = some u) : Alone u o := by
  intro d hd hdu
  have hall := h.single
  rw [List.filterMap_cons_some hu] at hall
  exact (List.nodup_cons.1 hall).1 (List.mem_filterMap.2 ⟨d, hd, hdu⟩)

theorem Orderly.settled_of_alone (h : Orderly s (c :: o)) (hc : c.user = none) (hu : Alone u o) : Settled u s := by
  refine h.settled u fun d hd => ?_
  rcases List.mem_cons.1 hd with rfl | hd
  · rw [hc]
    exact nofun
  · exact hu d hd

theorem Sound.keep (h : Sound s (c :: o)) (hmap : s'.presenceSubscribers = s.presenceSubscribers)
    (hsets : s'.sets = s.sets) (hcreated : s'.created = s.created)
    (hadds : ∀ x, c'.adds = some x → s.presenceSubscribers.get x.1 = some x.2)
    (hminds : ∀ t k, c.Minds t k → s.presenceSubscribers.get t = some k → (s.sets t k).elems = [] → c'.Minds t k) :
    Sound s' (c' :: o) where
  live t k u hk := by
    rw [hmap]
    rw [hsets] at hk
    exact h.live t k u hk
  old t k hk := by
    rw [hmap] at hk
    rw [hcreated]
    exact h.old t k hk
  adds d hd x hx := by
    rw [hmap]
    rcases List.mem_cons.1 hd with rfl | hd
    · exact hadds x hx
    · exact h.adds d (List.mem_cons_of_mem c hd) x hx
  minded t k hk he := by
    rw [hmap] at hk
    rw [hsets] at he
    obtain ⟨d, hd, hm⟩ := h.minded t k hk he
    rcases List.mem_cons.1 hd with rfl | hd
    · exact ⟨c', List.mem_cons_self, hminds t k hm hk he⟩
    · exact ⟨d, List.mem_cons_of_mem c' hd, hm⟩

theorem Sound.write (h : Sound s (c :: o)) {t : U} {k : ℕ} {members : LinkedSet U}
    (hsets : s'.sets = (s.setMembers t k members).sets) (hmap : s'.presenceSubscribers = s.presenceSubscribers)
    (hcreated : s'.created = s.created) (hlive : ∀ v, v ∈ members → s.presenceSubscribers.get t = some k)
    (hadds : c'.adds = none) (hminds : ∀ t' k', c.Minds t' k' → t' = t ∧ k' = k)
    (hempty : members.elems = [] → (s.sets t k).elems = [] ∧ (∀ t' k', ¬ c.Minds t' k') ∨ c'.Minds t k) :
    Sound s' (c' :: o) where
  live t' k' v hv := by
    rw [hmap]
    rw [hsets, sets_setMembers] at hv
    split at hv
    · rename_i heq
      rw [heq.1, heq.2]
      exact hlive v hv
    · exact h.live t' k' v hv
  old t' k' hk := by
    rw [hmap] at hk
    rw [hcreated]
    exact h.old t' k' hk
  adds d hd x hx := by
    rw [hmap]
    rcases List.mem_cons.1 hd with rfl | hd
    · rw [hadds] at hx
      cases hx
    · exact h.adds d (List.mem_cons_of_mem c hd) x hx
  minded t' k' hk he := by
    rw [hmap] at hk
    rw [hsets, sets_setMembers] at he
    split at he
    · rename_i heq
      obtain ⟨rfl, rfl⟩ := heq
      rcases hempty he with ⟨hbefore, hnone⟩ | hminds
      · obtain ⟨d, hd, hm⟩ := h.minded t' k' hk hbefore
        rcases List.mem_cons.1 hd with rfl | hd
        · exact absurd hm (hnone t' k')
        · exact ⟨d, List.mem_cons_of_mem c' hd, hm⟩
      · exact ⟨c', List.mem_cons_self, hminds⟩
    · rename_i hne
      obtain ⟨d, hd, hm⟩ := h.minded t' k' hk he
      rcases List.mem_cons.1 hd with rfl | hd
      · exact absurd (hminds t' k' hm) hne
      · exact ⟨d, List.mem_cons_of_mem c' hd, hm⟩

/-! ## The operations -/

theorem atMost_of_exhausted {t : U} {due seen : List (U × ℕ)} {count : ℕ} (h : Sound s (c :: o))
    (hfits : (Call.counting u t due seen count).Fits s) (hx : s.exhausted due = true) : AtMost count u s := by
  obtain ⟨-, -, hfound, hcount⟩ := hfits
  intro l hl hstored
  have hsub : ∀ t ∈ l, t ∈ (seen.filter fun x => decide (u ∈ s.sets x.1 x.2)).map Prod.fst := by
    intro t ht
    obtain ⟨k, hk⟩ := hstored t ht
    have hseen : (t, k) ∈ seen := by
      refine (hfound t k hk).resolve_left fun hdue => ?_
      exact of_decide_eq_true (List.all_eq_true.1 hx _ hdue) (h.live t k u hk)
    exact List.mem_map.2 ⟨(t, k), List.mem_filter.2 ⟨hseen, decide_eq_true hk⟩, rfl⟩
  have hlen := (List.subperm_of_subset hl hsub).length_le
  rw [List.length_map, ← List.countP_eq_length_filter] at hlen
  exact Nat.le_trans hlen hcount

theorem fits_visit {t : U} {due seen : List (U × ℕ)} {count : ℕ} {x : U × ℕ}
    (h : (Call.counting u t due seen count).Fits s) :
    (Call.counting u t (due.filter (· ≠ x)) (x :: seen)
      (if u ∈ s.sets x.1 x.2 then count + 1 else count)).Fits s := by
  obtain ⟨hsettled, hconn, hfound, hcount⟩ := h
  refine ⟨hsettled, hconn, fun t k hk => ?_, ?_⟩
  · by_cases hx : (t, k) = x
    · exact .inr (hx ▸ List.mem_cons_self)
    · exact (hfound t k hk).imp (fun hd => List.mem_filter.2 ⟨hd, decide_eq_true hx⟩) (List.mem_cons_of_mem x)
  · rw [List.countP_cons]
    by_cases hu : u ∈ s.sets x.1 x.2
    · simpa [hu] using hcount
    · simpa [hu] using hcount

theorem kept_add {t : U} {k : ℕ} (h : Sound s (.adding u t k :: o)) (hu : Orderly s (.adding u t k :: o)) :
    Sound ((s.setMembers t k ((s.sets t k).insert u)).setSubscribed u t true) (.finished :: o) ∧
    Orderly ((s.setMembers t k ((s.sets t k).insert u)).setSubscribed u t true) (.finished :: o) := by
  obtain ⟨hsettled, hconn, hroom⟩ := hu.fits _ List.mem_cons_self
  have hmapped : s.presenceSubscribers.get t = some k := h.adds _ List.mem_cons_self _ rfl
  constructor
  · refine h.write rfl rfl rfl (fun _ _ => hmapped) rfl (fun _ _ hm => hm) fun he => ?_
    have hmem : u ∈ (s.sets t k).insert u := LinkedSet.mem_insert.2 (.inr rfl)
    have hmem : u ∈ ((s.sets t k).insert u).elems := hmem
    rw [he] at hmem
    cases hmem
  · refine hu.step (a := some u) (.inr rfl) (.inl rfl) (fun v hv => ?_) (fun v hv => ?_) trivial (fun v hv => ?_)
    · cases hv
      exact hu.alone rfl
    · have hne : v ≠ u := fun he => hv (congrArg some he.symm)
      refine (same_setMembers ?_).trans (same_setSubscribed hne)
      rw [LinkedSet.mem_insert]
      exact or_iff_left hne
    · cases hv
      refine ⟨fun l hl hstored => ?_, fun _ => ⟨fun t' => ?_, fun _ _ => hconn⟩⟩
      · have hrest : (l.erase t).length ≤ Presence.maxPresenceSubscriptions - 1 := by
          refine hroom _ (hl.erase t) fun t' ht' => ?_
          obtain ⟨hne, hmem⟩ := hl.mem_erase_iff.1 ht'
          obtain ⟨k', hk'⟩ := hstored t' hmem
          exact ⟨k', (mem_add.1 hk').resolve_right fun he => hne he.1⟩
        have hlen : l.length ≤ (l.erase t).length + 1 := by
          rw [List.length_erase]
          split
          · omega
          · omega
        have hmax : Presence.maxPresenceSubscriptions = 512 := rfl
        omega
      · by_cases ht : t' = t
        · subst ht
          rw [setSubscribed_self]
          exact ⟨fun _ => rfl, fun _ => ⟨k, mem_add.2 (.inr ⟨rfl, rfl⟩)⟩⟩
        · rw [setSubscribed_of_ne ht]
          refine (exists_congr fun k' => ?_).trans (hsettled.agrees t')
          exact mem_add.trans (or_iff_left fun he => ht he.1)

theorem kept_remove {t : U} {k : ℕ} (h : Sound s (.removing u t k :: o)) (hu : Orderly s (.removing u t k :: o)) :
    Sound ((s.setMembers t k ((s.sets t k).erase u)).setSubscribed u t false) (.checking u t k :: o) ∧
    Orderly ((s.setMembers t k ((s.sets t k).erase u)).setSubscribed u t false) (.checking u t k :: o) := by
  obtain ⟨hsettled, honly⟩ := hu.fits _ List.mem_cons_self
  have hafter : Settled u ((s.setMembers t k ((s.sets t k).erase u)).setSubscribed u t false) := by
    refine ⟨fun t' => ?_, fun t' ht' => ?_⟩
    · by_cases ht : t' = t
      · subst ht
        rw [setSubscribed_self]
        refine ⟨fun ⟨k', hk'⟩ => ?_, nofun⟩
        obtain ⟨hmem, hne⟩ := mem_remove.1 hk'
        exact absurd ⟨rfl, honly k' hmem⟩ hne
      · rw [setSubscribed_of_ne ht]
        refine (exists_congr fun k' => ?_).trans (hsettled.agrees t')
        exact mem_remove.trans (and_iff_left fun he => ht he.1)
    · by_cases ht : t' = t
      · subst ht
        rw [setSubscribed_self] at ht'
        cases ht'
      · rw [setSubscribed_of_ne ht] at ht'
        exact hsettled.linked t' ht'
  constructor
  · refine h.write rfl rfl rfl (fun v hv => h.live t k v (LinkedSet.mem_erase.1 hv).1) rfl (fun _ _ hm => hm.elim)
      fun _ => .inr ⟨rfl, rfl⟩
  · refine hu.step (a := some u) (.inr rfl) (.inr rfl) (fun v hv => ?_) (fun v hv => ?_) hafter (fun v hv => ?_)
    · cases hv
      exact hu.alone rfl
    · have hne : v ≠ u := fun he => hv (congrArg some he.symm)
      refine (same_setMembers ?_).trans (same_setSubscribed hne)
      rw [LinkedSet.mem_erase]
      exact and_iff_left hne
    · cases hv
      refine ⟨fun l hl hstored => hu.capped u l hl fun t' ht' => ?_, fun _ => hafter⟩
      exact (hstored t' ht').imp fun k' hk' => (mem_remove.1 hk').1

theorem kept_clean {due seen : List (U × ℕ)} {x : U × ℕ} (h : Sound s (.cleaning u due seen :: o))
    (hu : Orderly s (.cleaning u due seen :: o))
    (hok : u ∈ s.sets x.1 x.2 → ((s.sets x.1 x.2).erase u).elems ≠ []) :
    Sound (s.setMembers x.1 x.2 ((s.sets x.1 x.2).erase u)) (.cleaning u (due.filter (· ≠ x)) (x :: seen) :: o) ∧
    Orderly (s.setMembers x.1 x.2 ((s.sets x.1 x.2).erase u)) (.cleaning u (due.filter (· ≠ x)) (x :: seen) :: o) := by
  have hdue : ∀ t k, u ∈ s.sets t k → (t, k) ∈ due := hu.fits _ List.mem_cons_self
  constructor
  · refine h.write rfl rfl rfl (fun v hv => h.live _ _ v (LinkedSet.mem_erase.1 hv).1) rfl (fun _ _ hm => hm.elim)
      fun he => .inl ⟨?_, fun _ _ hm => hm.elim⟩
    by_cases hmem : u ∈ s.sets x.1 x.2
    · exact absurd he (hok hmem)
    · have hsame : (s.sets x.1 x.2).elems.erase u = (s.sets x.1 x.2).elems := List.erase_of_not_mem hmem
      rw [← hsame]
      exact he
  · refine hu.step (a := some u) (.inr rfl) (.inr rfl) (fun v hv => ?_) (fun v hv => ?_) (fun t k hk => ?_)
      (fun v hv => ?_)
    · cases hv
      exact hu.alone rfl
    · have hne : v ≠ u := fun he => hv (congrArg some he.symm)
      refine same_setMembers ?_
      rw [LinkedSet.mem_erase]
      exact and_iff_left hne
    · obtain ⟨hmem, hne⟩ := mem_remove.1 hk
      exact List.mem_filter.2 ⟨hdue t k hmem, decide_eq_true fun he => hne ⟨congrArg Prod.fst he, congrArg Prod.snd he⟩⟩
    · cases hv
      refine ⟨fun l hl hstored => hu.capped u l hl fun t' ht' => ?_, nofun⟩
      exact (hstored t' ht').imp fun k' hk' => (mem_remove.1 hk').1

theorem kept_forget {due seen : List (U × ℕ)} (h : Sound s (.cleaning u due seen :: o))
    (hu : Orderly s (.cleaning u due seen :: o)) (hx : s.exhausted due = true) :
    Sound (s.forget u) (.finished :: o) ∧ Orderly (s.forget u) (.finished :: o) := by
  have hdue : ∀ t k, u ∈ s.sets t k → (t, k) ∈ due := hu.fits _ List.mem_cons_self
  have hforgot : ∀ t, (s.forget u).subscribed u t = false := fun t => by simp [forget]
  refine ⟨h.keep rfl rfl rfl nofun fun _ _ hm => hm.elim, ?_⟩
  refine hu.step (a := some u) (.inr rfl) (.inl rfl) (fun v hv => ?_) (fun v hv => ?_) trivial (fun v hv => ?_)
  · cases hv
    exact hu.alone rfl
  · have hne : v ≠ u := fun he => hv (congrArg some he.symm)
    exact ⟨fun _ _ => Iff.rfl, Function.update_of_ne hne _ _, id⟩
  · cases hv
    refine ⟨hu.capped u, fun _ => ⟨fun t => ?_, fun t ht => ?_⟩⟩
    · rw [hforgot]
      refine ⟨fun ⟨k, hk⟩ => ?_, nofun⟩
      exact absurd (h.live t k u hk) (of_decide_eq_true (List.all_eq_true.1 hx _ (hdue t k hk)))
    · rw [hforgot] at ht
      cases ht

theorem Sound.put {t : U} (h : Sound s (.creating u t :: o)) (hnone : s.presenceSubscribers.get t = none) :
    Sound { s with
      presenceSubscribers := s.presenceSubscribers.assign t s.created
      created := s.created + 1 } (.adding u t s.created :: o) where
  live t' k' v hv := by
    have hget := h.live t' k' v hv
    have hne : t' ≠ t := fun he => by
      rw [he, hnone] at hget
      cases hget
    exact (Table.get_assign_of_ne hne).trans hget
  old t' k' hk := by
    have hk : (s.presenceSubscribers.assign t s.created).get t' = some k' := hk
    rw [Table.get_assign] at hk
    split at hk
    · cases hk
      exact Nat.lt_succ_self _
    · exact Nat.lt_succ_of_lt (h.old t' k' hk)
  adds d hd x hx := by
    rcases List.mem_cons.1 hd with rfl | hd
    · cases hx
      exact Table.get_assign_self
    · have hget := h.adds d (List.mem_cons_of_mem _ hd) x hx
      have hne : x.1 ≠ t := fun he => by
        rw [he, hnone] at hget
        cases hget
      exact (Table.get_assign_of_ne hne).trans hget
  minded t' k' hk he := by
    have hk : (s.presenceSubscribers.assign t s.created).get t' = some k' := hk
    rw [Table.get_assign] at hk
    split at hk
    · rename_i ht
      cases hk
      exact ⟨_, List.mem_cons_self, ht, rfl⟩
    · obtain ⟨d, hd, hm⟩ := h.minded t' k' hk he
      rcases List.mem_cons.1 hd with rfl | hd
      · exact hm.elim
      · exact ⟨d, List.mem_cons_of_mem _ hd, hm⟩

theorem Sound.drop {t : U} {k k' : ℕ} (h : Sound s (.dropping u t k :: o)) (hd : s.dropped t k = some k')
    (hok : ∀ k' ∈ s.dropped t k, (s.sets t k').elems = [] ∧ ∀ c ∈ o, c.adds ≠ some (t, k')) :
    Sound { s with presenceSubscribers := s.presenceSubscribers.remove t } (.finished :: o) := by
  obtain ⟨hempty, hnone⟩ := hok k' hd
  have hget : s.presenceSubscribers.get t = some k' := (Option.filter_eq_some_iff.1 hd).1
  refine ⟨fun t' j v hv => ?_, fun t' j hj => ?_, fun d hdo x hx => ?_, fun t' j hj he => ?_⟩
  · have hj := h.live t' j v hv
    have hne : t' ≠ t := by
      rintro rfl
      cases hget.symm.trans hj
      have hv : v ∈ (s.sets t' k').elems := hv
      rw [hempty] at hv
      cases hv
    exact (Table.get_remove_of_ne hne).trans hj
  · have hj : (s.presenceSubscribers.remove t).get t' = some j := hj
    rw [Table.get_remove] at hj
    split at hj
    · cases hj
    · exact h.old t' j hj
  · rcases List.mem_cons.1 hdo with rfl | hdo
    · cases hx
    · have hxget := h.adds d (List.mem_cons_of_mem _ hdo) x hx
      have hne : x.1 ≠ t := by
        intro he
        rw [he] at hxget
        cases hget.symm.trans hxget
        exact hnone d hdo (by rw [hx, ← he])
      exact (Table.get_remove_of_ne hne).trans hxget
  · have hj : (s.presenceSubscribers.remove t).get t' = some j := hj
    rw [Table.get_remove] at hj
    split at hj
    · cases hj
    · rename_i hne
      obtain ⟨d, hd, hm⟩ := h.minded t' j hj he
      rcases List.mem_cons.1 hd with rfl | hd
      · exact absurd hm.1 hne
      · exact ⟨d, List.mem_cons_of_mem _ hd, hm⟩

theorem Orderly.next (h : Orderly s (c :: o)) (hu : c.user = some u) (hsame : ∀ v, Same v s s')
    (hc' : c'.user = none ∨ c'.user = some u) (hfits : c'.Fits s') (hsettled : c'.user = none → Settled u s') :
    Orderly s' (c' :: o) := by
  refine h.step (a := some u) (.inr hu) hc' (fun v hv => ?_) (fun v _ => hsame v) hfits (fun v hv => ?_)
  · cases hv
    exact h.alone hu
  · cases hv
    exact ⟨(hsame u).atMost (h.capped u), hsettled⟩

theorem kept_connecting {e : Reading U} (h : Sound s (.connecting u :: o)) (hu : Orderly s (.connecting u :: o))
    (he : s.exec (.connecting u) e = some (s', c')) : Sound s' (c' :: o) ∧ Orderly s' (c' :: o) := by
  cases e with
  | visit x => cases he
  | next =>
    cases he
    refine ⟨h.keep rfl rfl rfl nofun fun _ _ hm => hm.elim, ?_⟩
    refine hu.step (a := none) (.inl rfl) (.inl rfl) nofun (fun v _ => ⟨fun _ _ => Iff.rfl, rfl, fun hv => ?_⟩) trivial
      nofun
    by_cases hvu : v = u
    · rw [hvu]
      exact Function.update_self _ _ _
    · exact (Function.update_of_ne hvu _ _).trans hv

theorem kept_subscribing {t : U} {e : Reading U} (h : Sound s (.subscribing u t :: o))
    (hu : Orderly s (.subscribing u t :: o)) (hok : Safe s (.subscribing u t) e o)
    (he : s.exec (.subscribing u t) e = some (s', c')) : Sound s' (c' :: o) ∧ Orderly s' (c' :: o) := by
  cases e with
  | visit x => cases he
  | next =>
    cases he
    refine ⟨h.keep rfl rfl rfl nofun fun _ _ hm => hm.elim, ?_⟩
    refine hu.step (a := some u) (.inl rfl) (.inr rfl) (fun v hv => ?_) (fun v _ => Same.refl v s) ?_ (fun v hv => ?_)
    · cases hv
      exact hok.2
    · exact ⟨hu.settled_of_alone rfl hok.2, hok.1, fun t k hk => .inl (Table.get_eq_some.1 (h.live t k u hk)),
        Nat.le_refl _⟩
    · cases hv
      exact ⟨hu.capped u, nofun⟩

theorem kept_counting {t due seen count} {e : Reading U} (h : Sound s (.counting u t due seen count :: o))
    (hu : Orderly s (.counting u t due seen count :: o))
    (he : s.exec (.counting u t due seen count) e = some (s', c')) : Sound s' (c' :: o) ∧ Orderly s' (c' :: o) := by
  have hfits := hu.fits _ List.mem_cons_self
  cases e with
  | visit x =>
    simp only [exec] at he
    split at he
    · cases he
      exact ⟨h.keep rfl rfl rfl nofun fun _ _ hm => hm.elim, hu.next rfl (Same.refl · s) (.inr rfl) (fits_visit hfits) nofun⟩
    · cases he
  | next =>
    simp only [exec] at he
    split at he
    · rename_i hx
      cases he
      by_cases hcount : Presence.maxPresenceSubscriptions ≤ count
      · rw [if_pos hcount]
        exact ⟨h.keep rfl rfl rfl nofun fun _ _ hm => hm.elim,
          hu.next rfl (Same.refl · s) (.inl rfl) trivial fun _ => hfits.1⟩
      · rw [if_neg hcount]
        refine ⟨h.keep rfl rfl rfl nofun fun _ _ hm => hm.elim, hu.next rfl (Same.refl · s) (.inr rfl) ?_ nofun⟩
        exact ⟨hfits.1, hfits.2.1, (atMost_of_exhausted h hfits hx).mono
          (Nat.le_sub_one_of_lt (Nat.lt_of_not_le hcount))⟩
    · cases he

theorem kept_looking {t : U} {e : Reading U} (h : Sound s (.looking u t :: o)) (hu : Orderly s (.looking u t :: o))
    (he : s.exec (.looking u t) e = some (s', c')) : Sound s' (c' :: o) ∧ Orderly s' (c' :: o) := by
  have hfits := hu.fits _ List.mem_cons_self
  cases e with
  | visit x => cases he
  | next =>
    simp only [exec] at he
    split at he
    · rename_i k hget
      cases he
      refine ⟨h.keep rfl rfl rfl (fun x hx => ?_) fun _ _ hm => hm.elim, hu.next rfl (Same.refl · s) (.inr rfl) hfits nofun⟩
      cases hx
      exact hget
    · cases he
      exact ⟨h.keep rfl rfl rfl nofun fun _ _ hm => hm.elim, hu.next rfl (Same.refl · s) (.inr rfl) hfits nofun⟩

theorem kept_creating {t : U} {e : Reading U} (h : Sound s (.creating u t :: o)) (hu : Orderly s (.creating u t :: o))
    (he : s.exec (.creating u t) e = some (s', c')) : Sound s' (c' :: o) ∧ Orderly s' (c' :: o) := by
  have hfits := hu.fits _ List.mem_cons_self
  cases e with
  | visit x => cases he
  | next =>
    simp only [exec] at he
    split at he
    · rename_i k hget
      cases he
      refine ⟨h.keep rfl rfl rfl (fun x hx => ?_) fun _ _ hm => hm.elim, hu.next rfl (Same.refl · s) (.inr rfl) hfits nofun⟩
      cases hx
      exact hget
    · rename_i hnone
      cases he
      have hsame' : ∀ v, Same v s { s with
          presenceSubscribers := s.presenceSubscribers.assign t s.created
          created := s.created + 1 } := fun v => ⟨fun _ _ => Iff.rfl, rfl, id⟩
      refine ⟨h.put hnone, hu.next rfl hsame' (.inr rfl) ?_ nofun⟩
      exact ⟨(hsame' u).settled hfits.1, hfits.2.1, (hsame' u).atMost hfits.2.2⟩

theorem kept_unsubscribing {t : U} {e : Reading U} (h : Sound s (.unsubscribing u t :: o))
    (hu : Orderly s (.unsubscribing u t :: o)) (hok : Safe s (.unsubscribing u t) e o)
    (he : s.exec (.unsubscribing u t) e = some (s', c')) : Sound s' (c' :: o) ∧ Orderly s' (c' :: o) := by
  have hsettled := hu.settled_of_alone rfl hok
  cases e with
  | visit x => cases he
  | next =>
    simp only [exec] at he
    split at he
    · rename_i k hget
      cases he
      refine ⟨h.keep rfl rfl rfl nofun fun _ _ hm => hm.elim, ?_⟩
      refine hu.step (a := some u) (.inl rfl) (.inr rfl) (fun v hv => ?_) (fun v _ => Same.refl v s) ?_ (fun v hv => ?_)
      · cases hv
        exact hok
      · exact ⟨hsettled, fun k' hk' => Option.some.inj ((h.live t k' u hk').symm.trans hget)⟩
      · cases hv
        exact ⟨hu.capped u, nofun⟩
    · rename_i hnone
      cases he
      have hafter : Settled u (s.setSubscribed u t false) := by
        have hstored : ¬ ∃ k, u ∈ s.sets t k := by
          rintro ⟨k, hk⟩
          have hget := h.live t k u hk
          rw [hnone] at hget
          cases hget
        refine ⟨fun t' => ?_, fun t' ht' => ?_⟩
        · by_cases ht : t' = t
          · subst ht
            rw [setSubscribed_self]
            exact ⟨fun hk => absurd hk hstored, nofun⟩
          · rw [setSubscribed_of_ne ht]
            exact hsettled.agrees t'
        · by_cases ht : t' = t
          · subst ht
            rw [setSubscribed_self] at ht'
            cases ht'
          · rw [setSubscribed_of_ne ht] at ht'
            exact hsettled.linked t' ht'
      refine ⟨h.keep rfl rfl rfl nofun fun _ _ hm => hm.elim, ?_⟩
      refine hu.step (a := some u) (.inl rfl) (.inl rfl) (fun v hv => ?_)
        (fun v hv => same_setSubscribed fun he => hv (congrArg some he.symm)) trivial (fun v hv => ?_)
      · cases hv
        exact hok
      · cases hv
        exact ⟨hu.capped u, fun _ => hafter⟩

theorem kept_checking {t : U} {k : ℕ} {e : Reading U} (h : Sound s (.checking u t k :: o))
    (hu : Orderly s (.checking u t k :: o))
    (he : s.exec (.checking u t k) e = some (s', c')) : Sound s' (c' :: o) ∧ Orderly s' (c' :: o) := by
  have hfits : Settled u s := hu.fits _ List.mem_cons_self
  cases e with
  | visit x => cases he
  | next =>
    cases he
    by_cases hempty : (s.sets t k).elems = []
    · rw [if_pos hempty]
      exact ⟨h.keep rfl rfl rfl nofun fun _ _ hm _ _ => hm, hu.next rfl (Same.refl · s) (.inr rfl) hfits nofun⟩
    · rw [if_neg hempty]
      refine ⟨h.keep rfl rfl rfl nofun fun t' k' hm _ he => ?_, hu.next rfl (Same.refl · s) (.inl rfl) trivial fun _ => hfits⟩
      rw [hm.1, hm.2] at he
      exact absurd he hempty

theorem kept_dropping {t : U} {k : ℕ} {e : Reading U} (h : Sound s (.dropping u t k :: o))
    (hu : Orderly s (.dropping u t k :: o)) (hok : Safe s (.dropping u t k) e o)
    (he : s.exec (.dropping u t k) e = some (s', c')) : Sound s' (c' :: o) ∧ Orderly s' (c' :: o) := by
  have hfits : Settled u s := hu.fits _ List.mem_cons_self
  cases e with
  | visit x => cases he
  | next =>
    simp only [exec] at he
    split at he
    · rename_i k' hd
      cases he
      have hsame' : ∀ v, Same v s { s with presenceSubscribers := s.presenceSubscribers.remove t } :=
        fun v => ⟨fun _ _ => Iff.rfl, rfl, id⟩
      exact ⟨h.drop hd hok, hu.next rfl hsame' (.inl rfl) trivial fun _ => (hsame' u).settled hfits⟩
    · rename_i hnone
      cases he
      refine ⟨h.keep rfl rfl rfl nofun fun t' k' hm hget _ => ?_, hu.next rfl (Same.refl · s) (.inl rfl) trivial fun _ => hfits⟩
      -- a set that is in the map has the members of the same set
      obtain ⟨rfl, rfl⟩ := hm
      have hd : s.dropped t' k' = some k' :=
        Option.filter_eq_some_iff.2 ⟨hget, decide_eq_true ⟨fun _ hv => hv, fun _ hv => hv⟩⟩
      rw [hnone] at hd
      cases hd

theorem kept_disconnecting {e : Reading U} (h : Sound s (.disconnecting u :: o))
    (hu : Orderly s (.disconnecting u :: o)) (hok : Safe s (.disconnecting u) e o)
    (he : s.exec (.disconnecting u) e = some (s', c')) : Sound s' (c' :: o) ∧ Orderly s' (c' :: o) := by
  cases e with
  | visit x => cases he
  | next =>
    cases he
    refine ⟨h.keep rfl rfl rfl nofun fun _ _ hm => hm.elim, ?_⟩
    refine hu.step (a := some u) (.inl rfl) (.inr rfl) (fun v hv => ?_) (fun v hv => ?_) trivial (fun v hv => ?_)
    · cases hv
      exact hok
    · have hne : v ≠ u := fun he => hv (congrArg some he.symm)
      exact ⟨fun _ _ => Iff.rfl, rfl, fun hc => (Function.update_of_ne hne _ _).trans hc⟩
    · cases hv
      exact ⟨hu.capped u, nofun⟩

theorem kept_exec {e : Reading U} (h : Sound s (c :: o)) (hu : Orderly s (c :: o)) (hok : Safe s c e o)
    (he : s.exec c e = some (s', c')) : Sound s' (c' :: o) ∧ Orderly s' (c' :: o) := by
  cases c with
  | finished => cases e with
    | _ => cases he
  | connecting u => exact kept_connecting h hu he
  | subscribing u t => exact kept_subscribing h hu hok he
  | counting u t due seen count => exact kept_counting h hu he
  | looking u t => exact kept_looking h hu he
  | creating u t => exact kept_creating h hu he
  | adding u t k =>
    cases e with
    | visit x => cases he
    | next =>
      cases he
      exact kept_add h hu
  | unsubscribing u t => exact kept_unsubscribing h hu hok he
  | removing u t k =>
    cases e with
    | visit x => cases he
    | next =>
      cases he
      exact kept_remove h hu
  | checking u t k => exact kept_checking h hu he
  | dropping u t k => exact kept_dropping h hu hok he
  | disconnecting u => exact kept_disconnecting h hu hok he
  | leaving u =>
    cases e with
    | visit x => cases he
    | next =>
      cases he
      refine ⟨h.keep rfl rfl rfl nofun fun _ _ hm => hm.elim, hu.next rfl (Same.refl · s) (.inr rfl) ?_ nofun⟩
      exact fun t k hk => Table.get_eq_some.1 (h.live t k u hk)
  | cleaning u due seen =>
    cases e with
    | visit x =>
      simp only [exec] at he
      split at he
      · cases he
        exact kept_clean h hu hok
      · cases he
    | next =>
      simp only [exec] at he
      split at he
      · rename_i hx
        cases he
        exact kept_forget h hu hx
      · cases he

end Steps

/-! ## Every run -/

theorem sound_init : Sound (init : Server U) [] where
  live _ _ _ hv := absurd hv (LinkedSet.not_mem_empty _)
  old _ _ hk := by cases hk
  adds _ hc := by cases hc
  minded _ _ hk := by cases hk

theorem orderly_init : Orderly (init : Server U) [] where
  fits _ hc := by cases hc
  single := List.nodup_nil
  settled u _ := ⟨fun t => ⟨fun ⟨_, hk⟩ => absurd hk (LinkedSet.not_mem_empty _), nofun⟩, nofun⟩
  capped u l _ hstored := by
    cases l with
    | nil => exact Nat.zero_le _
    | cons t l =>
      obtain ⟨k, hk⟩ := hstored t List.mem_cons_self
      exact absurd hk (LinkedSet.not_mem_empty _)

theorem subscriptionCount_le {s : Server U} {u : U} {n : ℕ} (h : AtMost n u s) : s.subscriptionCount u ≤ n := by
  unfold subscriptionCount
  rw [List.countP_eq_length_filter, ← List.length_map Prod.fst]
  refine h _ ((List.filter_sublist.map Prod.fst).nodup s.presenceSubscribers.nodup) fun t ht => ?_
  obtain ⟨x, hx, rfl⟩ := List.mem_map.1 ht
  exact ⟨x.2, of_decide_eq_true (List.mem_filter.1 hx).2⟩

/-- **No subscription is lost or leaked** in a run whose steps all meet the condition: no user ever watches more than
512 targets; and when all calls have ended, the stored subscribers of a target are the connected users whose last
operation for it was a subscription, and every set in the map has a member. -/
theorem subscriptions_run {ls : List (Pool.Label (Request U) (Reading U))} {q : State U}
    (hm : Runs.Meets step (Pool.Moves Safe) ⟨init, []⟩ ls) (hr : Runs.run step ⟨init, []⟩ ls = some q) :
    (∀ u, q.shared.subscriptionCount u ≤ Presence.maxPresenceSubscriptions) ∧
    ((∀ c ∈ q.threads, c = .finished) →
      (∀ u t, u ∈ q.shared.subscribers t ↔ q.shared.connected u = true ∧ q.shared.subscribed u t = true) ∧
      ∀ t k, q.shared.presenceSubscribers.get t = some k → (q.shared.sets t k).elems ≠ []) := by
  have hstart : Sound (init : Server U) [] ∧ Orderly (init : Server U) [] := ⟨sound_init, orderly_init⟩
  obtain ⟨hsound, horderly⟩ : Sound q.shared q.threads ∧ Orderly q.shared q.threads :=
    Pool.invariant (fun s cs => Sound s cs ∧ Orderly s cs) (fun _ _ _ hp h => ⟨h.1.perm hp, h.2.perm hp⟩)
      (fun _ _ r h => ⟨h.1.spawn r, h.2.spawn r⟩) (fun _ _ e _ _ _ h hok he => kept_exec (e := e) h.1 h.2 hok he)
      hstart hm hr
  refine ⟨fun u => subscriptionCount_le (horderly.capped u), fun hdone => ⟨fun u t => ?_, fun t k hk he => ?_⟩⟩
  · have hsettled : Settled u q.shared := horderly.settled u fun c hc => by
      rw [hdone c hc]
      exact nofun
    have hstored : u ∈ q.shared.subscribers t ↔ ∃ k, u ∈ q.shared.sets t k := by
      unfold subscribers
      split
      · rename_i k hget
        refine ⟨fun hu => ⟨k, hu⟩, fun ⟨k', hk'⟩ => ?_⟩
        cases hget.symm.trans (hsound.live t k' u hk')
        exact hk'
      · rename_i hnone
        refine ⟨fun hu => absurd hu (LinkedSet.not_mem_empty _), fun ⟨k', hk'⟩ => ?_⟩
        have hget := hsound.live t k' u hk'
        rw [hnone] at hget
        cases hget
    rw [hstored, hsettled.agrees t]
    exact ⟨fun hs => ⟨hsettled.linked t hs, hs⟩, fun hs => hs.2⟩
  · obtain ⟨c, hc, hminds⟩ := hsound.minded t k hk he
    rw [hdone c hc] at hminds
    exact hminds

/-- The first thread does `n` operations. -/
def nexts (i n : ℕ) : List (Pool.Label (Request ℕ) (Reading ℕ)) := List.replicate n (.step i .next)

def oneLeaves : List (Pool.Label (Request ℕ) (Reading ℕ)) :=
  .start (.connect 1) :: nexts 0 1 ++ .start (.connect 2) :: nexts 1 1 ++
  .start (.subscribePresence 1 3) :: nexts 2 5 ++
  .start (.subscribePresence 2 3) :: nexts 3 1 ++ .step 3 (.visit (3, 0)) :: nexts 3 3 ++
  .start (.unsubscribePresence 1 3) :: nexts 4 3

theorem subscriptions_oneLeaves : ∃ q : State ℕ, Runs.run step ⟨init, []⟩ oneLeaves = some q ∧
    (q.shared.subscribers 3).elems = [2] ∧ (2 ∈ q.shared.subscribers 3 ↔
      q.shared.connected 2 = true ∧ q.shared.subscribed 2 3 = true) := by
  obtain ⟨q, hq, hdone, hstored⟩ : ∃ q : State ℕ, Runs.run step ⟨init, []⟩ oneLeaves = some q ∧
      (∀ c ∈ q.threads, c = .finished) ∧ (q.shared.subscribers 3).elems = [2] :=
    Runs.exists_run _ _ _ (by decide +kernel)
  exact ⟨q, hq, hstored, ((subscriptions_run (by decide +kernel) hq).2 hdone).1 2 3⟩

/-- The first subscriber unsubscribes and finds the set empty; the second has it already and adds itself once the first
has dropped it. -/
def addsToDropped : List (Pool.Label (Request ℕ) (Reading ℕ)) :=
  .start (.connect 1) :: nexts 0 1 ++ .start (.connect 2) :: nexts 1 1 ++
  .start (.subscribePresence 1 3) :: nexts 2 5 ++
  .start (.unsubscribePresence 1 3) :: nexts 3 3 ++
  .start (.subscribePresence 2 3) :: nexts 4 1 ++ .step 4 (.visit (3, 0)) :: nexts 4 2 ++
  nexts 3 1 ++ nexts 4 1

def lastDisconnects : List (Pool.Label (Request ℕ) (Reading ℕ)) :=
  .start (.connect 1) :: nexts 0 1 ++ .start (.subscribePresence 1 3) :: nexts 1 5 ++
  .start (.disconnect 1) :: nexts 2 2 ++ .step 2 (.visit (3, 0)) :: nexts 2 1

/-- **A subscription is lost, and an empty set stays.** -/
theorem subscription_lost :
    (∃ q : State ℕ, Runs.run step ⟨init, []⟩ addsToDropped = some q ∧ (∀ c ∈ q.threads, c = .finished) ∧
      q.shared.connected 2 = true ∧ q.shared.subscribed 2 3 = true ∧ ¬ 2 ∈ q.shared.subscribers 3) ∧
    ∃ q : State ℕ, Runs.run step ⟨init, []⟩ lastDisconnects = some q ∧ (∀ c ∈ q.threads, c = .finished) ∧
      q.shared.presenceSubscribers.get 3 = some 0 ∧ (q.shared.sets 3 0).elems = [] :=
  ⟨Runs.exists_run _ _ _ (by decide +kernel), Runs.exists_run _ _ _ (by decide +kernel)⟩

end Subscriptions
end SecureChat
