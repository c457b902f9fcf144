import Mathlib.Data.List.Nodup
import SecureChat.OfflineQueue
/-!
# OfflineDelivery — what the offline queues promise, and when

Every envelope in a queue or in a drain's list is the seal of a call that has queued it, under its own bucket, and what
a session was sent came from a call that will not queue it or from a bucket its drain has read (`Origin`).  So no frame
is sent twice to a session and a drain discards only stale offers, in every run.  That nothing is left behind needs a
condition: `routeMessage` queues after it looked, so a drain may have read the bucket in between.
-/
namespace SecureChat
namespace Offline

open Redis Runs

variable {π μ : Type} {P : ServerPrivacy π μ}

/-! ## The queues lose members -/

section Queue

variable [LinearOrder π]

theorem keys_zrange (c : Coll π ℤ) : c.zrange.Perm c.keys := by
  unfold Coll.zrange Coll.sorted Coll.keys AList.keys List.keys
  exact (List.perm_insertionSort _ _).map _

theorem zrange_nodup (c : Coll π ℤ) : c.zrange.Nodup := (keys_zrange c).nodup_iff.2 c.keys_nodup

theorem mem_keys_foldl_del : ∀ (ps : List π) {c : Coll π ℤ} {p : π}, p ∈ (ps.foldl (fun c p => c.del p) c).keys →
    p ∈ c.keys
  | [], _, _, h => h
  | _ :: ps, _, _, h => (Coll.mem_keys_del.1 (mem_keys_foldl_del ps h)).2

theorem mem_keys_trim {maxBytes : ℕ} {c : Coll π ℤ} {p : π} (h : p ∈ (trim P maxBytes c).keys) : p ∈ c.keys := by
  unfold trim at h
  simp only at h
  split at h
  · exact mem_keys_foldl_del _ h
  · exact mem_keys_foldl_del _ (mem_keys_foldl_del _ h)

end Queue

theorem mem_keys_sweep {now : ℕ} {c : Coll π ℤ} {p : π} (h : p ∈ (c.sweep now).keys) : p ∈ c.keys := by
  unfold Coll.sweep at h
  split at h
  · exact h
  · cases h

/-! ## Where envelopes come from -/

def Route.stored : Route μ → Option μ
  | .trimming m | .expiring m | .queued m => some m
  | _ => none

def Drain.unread (d : Drain π) (b : Bucket) : Bool :=
  match d with
  | .starting => true
  | .listing _ b' => b' == .message || b == .file
  | .sending _ .message _ | .removing _ .message .. => b == .file
  | .sending _ .file _ | .removing _ .file .. => false
  | .idle | .done => false

def Drain.rest (d : Drain π) (b : Bucket) : List π :=
  match d with
  | .sending _ b' rest | .removing _ b' _ rest => if b' = b then rest else []
  | _ => []

namespace State

variable {s : State π μ}

def Queued (P : ServerPrivacy π μ) (s : State π μ) (b : Bucket) (p : π) : Prop :=
  ∃ i m, p = P.sealQueue i m ∧ (s.routes i).stored = some m ∧ P.bucket m = b

/-- **Where everything comes from.** -/
structure Origin (P : ServerPrivacy π μ) (s : State π μ) : Prop where
  queue : ∀ b p, p ∈ (s.queue b).keys → s.Queued P b p
  rest : ∀ n b p, p ∈ (s.drains n).rest b → s.Queued P b p
  restNodup : ∀ n b, ((s.drains n).rest b).Nodup
  sent : ∀ n p, p ∈ s.sent n → (∃ i m, p = P.sealQueue i m ∧ s.routes i = .routed m) ∨
    ∃ b, s.Queued P b p ∧ (s.drains n).unread b = false ∧ p ∉ (s.drains n).rest b
  nodup : ∀ n, (s.sent n).Nodup
  unopened : ∀ n, s.drains n = .idle → s.sent n = [] ∧ s.connections.current ≠ some n ∧
    ∀ i m, s.routes i ≠ .sending m n
  discarded : ∀ p now, (p, now) ∈ s.discarded → ∃ m, P.openQueue p = some m ∧ P.stale now m = true

theorem origin_init : Origin P (init : State π μ) where
  queue b p h := by cases b <;> cases h
  rest n b p h := by cases h
  restNodup n b := List.nodup_nil
  sent n p h := by cases h
  nodup n := List.nodup_nil
  unopened n _ := ⟨rfl, nofun, nofun⟩
  discarded p now h := by cases h

theorem Queued.bucket_eq {b b' : Bucket} {p : π} (h : s.Queued P b p) (h' : s.Queued P b' p) : b = b' := by
  obtain ⟨i, m, rfl, -, rfl⟩ := h
  obtain ⟨j, m', hp, -, rfl⟩ := h'
  rw [(P.seal_fresh _ _ _ _ hp).2]

theorem Queued.not_routed {b : Bucket} {i : ℕ} {m : μ} (h : s.Queued P b (P.sealQueue i m)) :
    s.routes i ≠ .routed m := by
  obtain ⟨j, m', hp, hst, -⟩ := h
  obtain ⟨rfl, rfl⟩ := P.seal_fresh _ _ _ _ hp
  intro hr
  rw [hr] at hst
  cases hst

theorem Queued.setRoute {b : Bucket} {p : π} {i : ℕ} {r : Route μ} (h : s.Queued P b p)
    (hst : ∀ m, (s.routes i).stored = some m → r.stored = some m) : (s.setRoute i r).Queued P b p := by
  obtain ⟨j, m, hp, hj, hb⟩ := h
  refine ⟨j, m, hp, ?_, hb⟩
  show (Function.update s.routes i r j).stored = some m
  by_cases hji : j = i
  · subst hji
    rw [Function.update_self]
    exact hst m hj
  · rwa [Function.update_of_ne hji]

/-! ### One field at a time -/

theorem Origin.setRoute (h : Origin P s) {i : ℕ} {r : Route μ}
    (hst : ∀ m, (s.routes i).stored = some m → r.stored = some m) (hrt : ∀ m, s.routes i ≠ .routed m)
    (hsend : ∀ m n, r = .sending m n → s.drains n ≠ .idle) : Origin P (s.setRoute i r) where
  queue b p hp := (h.queue b p hp).setRoute hst
  rest n b p hp := (h.rest n b p hp).setRoute hst
  restNodup := h.restNodup
  sent n p hp := by
    rcases h.sent n p hp with ⟨j, m, hpj, hj⟩ | ⟨b, hq, hu, hr⟩
    · refine .inl ⟨j, m, hpj, ?_⟩
      show Function.update s.routes i r j = .routed m
      have hji : j ≠ i := fun hji => hrt m (hji ▸ hj)
      rwa [Function.update_of_ne hji]
    · exact .inr ⟨b, hq.setRoute hst, hu, hr⟩
  nodup := h.nodup
  unopened n hn := by
    obtain ⟨hs, hc, hr⟩ := h.unopened n hn
    refine ⟨hs, hc, fun j m => ?_⟩
    show Function.update s.routes i r j ≠ .sending m n
    by_cases hji : j = i
    · subst hji
      rw [Function.update_self]
      exact fun hrs => hsend m n hrs hn
    · rw [Function.update_of_ne hji]
      exact hr j m
  discarded := h.discarded

theorem Origin.setQueue (h : Origin P s) {b : Bucket} {c : Coll π ℤ}
    (hc : ∀ p ∈ c.keys, s.Queued P b p) : Origin P (s.setQueue b c) where
  queue b' p hp := by
    have hp : p ∈ (Function.update s.queue b c b').keys := hp
    by_cases hb : b' = b
    · subst hb
      rw [Function.update_self] at hp
      exact hc p hp
    · rw [Function.update_of_ne hb] at hp
      exact h.queue b' p hp
  rest := h.rest
  restNodup := h.restNodup
  sent := h.sent
  nodup := h.nodup
  unopened := h.unopened
  discarded := h.discarded

theorem Origin.setDrain (h : Origin P s) {n : ℕ} {d : Drain π} (hd : d ≠ .idle)
    (hrest : ∀ b p, p ∈ d.rest b → s.Queued P b p) (hnodup : ∀ b, (d.rest b).Nodup)
    (hsent : ∀ b p, p ∈ s.sent n → s.Queued P b p → (s.drains n).unread b = false → p ∉ (s.drains n).rest b →
      d.unread b = false ∧ p ∉ d.rest b) : Origin P (s.setDrain n d) where
  queue := h.queue
  rest j b p hp := by
    have hp : p ∈ (Function.update s.drains n d j).rest b := hp
    by_cases hj : j = n
    · subst hj
      rw [Function.update_self] at hp
      exact hrest b p hp
    · rw [Function.update_of_ne hj] at hp
      exact h.rest j b p hp
  restNodup j b := by
    show ((Function.update s.drains n d j).rest b).Nodup
    by_cases hj : j = n
    · subst hj
      rw [Function.update_self]
      exact hnodup b
    · rw [Function.update_of_ne hj]
      exact h.restNodup j b
  sent j p hp := by
    rcases h.sent j p hp with hr | ⟨b, hq, hu, hr⟩
    · exact .inl hr
    · refine .inr ⟨b, hq, ?_⟩
      show (Function.update s.drains n d j).unread b = false ∧ p ∉ (Function.update s.drains n d j).rest b
      by_cases hj : j = n
      · subst hj
        rw [Function.update_self]
        exact hsent b p hp hq hu hr
      · rw [Function.update_of_ne hj]
        exact ⟨hu, hr⟩
  nodup := h.nodup
  unopened j hj := by
    have hj : Function.update s.drains n d j = .idle := hj
    by_cases hjn : j = n
    · subst hjn
      rw [Function.update_self] at hj
      exact absurd hj hd
    · rw [Function.update_of_ne hjn] at hj
      exact h.unopened j hj
  discarded := h.discarded

theorem Origin.deliver (h : Origin P s) {n : ℕ} {p : π} (hp : p ∉ s.sent n) (hn : s.drains n ≠ .idle)
    (ho : (∃ i m, p = P.sealQueue i m ∧ s.routes i = .routed m) ∨
      ∃ b, s.Queued P b p ∧ (s.drains n).unread b = false ∧ p ∉ (s.drains n).rest b) : Origin P (s.deliver n p) where
  queue := h.queue
  rest := h.rest
  restNodup := h.restNodup
  sent j p' hp' := by
    have hp' : p' ∈ Function.update s.sent n (p :: s.sent n) j := hp'
    by_cases hj : j = n
    · subst hj
      rw [Function.update_self] at hp'
      rcases List.mem_cons.1 hp' with rfl | hp'
      · exact ho
      · exact h.sent j p' hp'
    · rw [Function.update_of_ne hj] at hp'
      exact h.sent j p' hp'
  nodup j := by
    show (Function.update s.sent n (p :: s.sent n) j).Nodup
    by_cases hj : j = n
    · subst hj
      rw [Function.update_self]
      exact List.nodup_cons.2 ⟨hp, h.nodup j⟩
    · rw [Function.update_of_ne hj]
      exact h.nodup j
  unopened j hj := by
    have hjn : j ≠ n := fun hjn => hn (hjn ▸ hj)
    refine ⟨?_, (h.unopened j hj).2⟩
    show Function.update s.sent n (p :: s.sent n) j = []
    rw [Function.update_of_ne hjn]
    exact (h.unopened j hj).1
  discarded := h.discarded

/-! ### The steps -/

theorem Origin.discard (h : Origin P s) {n : ℕ} {now : ℤ} {b : Bucket} {p : π} {rest : List π} {capable : Bool}
    (hn : s.drains n = .sending now b (p :: rest)) (hv : verdict P capable now p = .discard) :
    ∃ m, P.openQueue p = some m ∧ P.stale now m = true := by
  have hp : p ∈ (s.drains n).rest b := by
    rw [hn]
    simp [Drain.rest]
  obtain ⟨i, m, rfl, -, -⟩ := h.rest n b p hp
  refine ⟨m, P.open_seal i m, ?_⟩
  unfold verdict at hv
  rw [P.open_seal] at hv
  simp only at hv
  split at hv
  · rename_i hs
    exact hs
  · split at hv <;> cases hv

theorem Origin.route (h : Origin P s) {i : ℕ} {m : μ} (hi : s.routes i = .idle) :
    Origin P (s.setRoute i (.looking m)) :=
  h.setRoute (fun m' hm => by rw [hi] at hm; cases hm) (fun m' => by rw [hi]; nofun) nofun

theorem Origin.send (h : Origin P s) {i n : ℕ} {m : μ} (hi : s.routes i = .sending m n) :
    Origin P ((s.deliver n (P.sealQueue i m)).setRoute i (.routed m)) := by
  have hst : ∀ m', (s.routes i).stored = some m' → (Route.routed m).stored = some m' := fun m' hm' => by
    rw [hi] at hm'
    cases hm'
  have hr : Origin P (s.setRoute i (.routed m)) := h.setRoute hst (fun m' => by rw [hi]; nofun) nofun
  have hn : s.drains n ≠ .idle := fun hn => (h.unopened n hn).2.2 i m hi
  refine hr.deliver ?_ hn (.inl ⟨i, m, rfl, Function.update_self _ _ _⟩)
  intro hp
  rcases h.sent n _ hp with ⟨j, m', hpj, hj⟩ | ⟨b, ⟨j, m', hpj, hj, -⟩, -⟩
  · obtain ⟨rfl, rfl⟩ := P.seal_fresh _ _ _ _ hpj
    rw [hi] at hj
    cases hj
  · obtain ⟨rfl, rfl⟩ := P.seal_fresh _ _ _ _ hpj
    rw [hi] at hj
    cases hj

theorem Origin.forget (h : Origin P s) {n : ℕ} {d : Drain π} (hd : d ≠ .idle)
    (hrest : ∀ b, (d.rest b).Sublist ((s.drains n).rest b))
    (hunread : ∀ b, (s.drains n).unread b = false → d.unread b = false) : Origin P (s.setDrain n d) :=
  h.setDrain hd (fun b p hp => h.rest n b p ((hrest b).subset hp)) (fun b => (h.restNodup n b).sublist (hrest b))
    (fun b _ _ _ hu hr => ⟨hunread b hu, fun hp => hr ((hrest b).subset hp)⟩)

theorem Origin.connect (h : Origin P s) {n : ℕ} {c : Connections} {capable : ℕ → Bool} (hn : s.drains n = .idle)
    (hc : c.current = some n) :
    Origin P { s.setDrain n .starting with connections := c, callCapable := capable } := by
  have hd : Origin P (s.setDrain n .starting) :=
    h.setDrain nofun nofun (fun _ => List.nodup_nil) (fun b p hp => by
      rw [(h.unopened n hn).1] at hp
      cases hp)
  refine ⟨hd.queue, hd.rest, hd.restNodup, hd.sent, hd.nodup, fun j hj => ?_, hd.discarded⟩
  obtain ⟨hs, -, hr⟩ := hd.unopened j hj
  refine ⟨hs, fun hcj => ?_, hr⟩
  have hcj : c.current = some j := hcj
  rw [hc, Option.some.injEq] at hcj
  subst hcj
  have hj : Function.update s.drains n .starting n = .idle := hj
  rw [Function.update_self] at hj
  cases hj

theorem Origin.drainSend (h : Origin P s) {n : ℕ} {now : ℤ} {b : Bucket} {p : π} {rest : List π}
    (hn : s.drains n = .sending now b (p :: rest)) :
    Origin P ((s.deliver n p).setDrain n (.removing now b p rest)) := by
  have hp : p ∈ (s.drains n).rest b := by
    rw [hn]
    simp [Drain.rest]
  have hq := h.rest n b p hp
  have hnd := h.restNodup n b
  rw [hn] at hnd
  simp only [Drain.rest, if_true, List.nodup_cons] at hnd
  have hd : Origin P (s.setDrain n (.removing now b p rest)) := by
    refine h.forget nofun (fun b' => ?_) (fun b' hu => ?_)
    · rw [hn]
      simp only [Drain.rest]
      split
      · exact List.sublist_cons_self _ _
      · exact List.nil_sublist _
    · rw [hn] at hu
      cases b <;> exact hu
  have hself : (s.setDrain n (.removing now b p rest)).drains n = .removing now b p rest := Function.update_self _ _ _
  refine hd.deliver ?_ (by rw [hself]; nofun) (.inr ⟨b, hq, ?_, ?_⟩)
  · intro hs
    rcases h.sent n p hs with ⟨i, m, rfl, hi⟩ | ⟨b', hq', -, hr⟩
    · exact hq.not_routed hi
    · exact hr (hq.bucket_eq hq' ▸ hp)
  · rw [hself]
    cases b <;> rfl
  · rw [hself]
    simp only [Drain.rest, if_true]
    exact hnd.1

variable [LinearOrder π]

/-- `ZADD`: from here on the envelope is the queue's. -/
theorem Origin.enqueue (h : Origin P s) {i : ℕ} {m : μ} (hi : s.routes i = .queueing m) (now : ℤ) :
    Origin P ((s.setQueue (P.bucket m) ((s.queue (P.bucket m)).put (P.sealQueue i m) now)).setRoute i
      (.trimming m)) := by
  have hst : ∀ m', (s.routes i).stored = some m' → (Route.trimming m).stored = some m' := fun m' hm' => by
    rw [hi] at hm'
    cases hm'
  have hr : Origin P (s.setRoute i (.trimming m)) := h.setRoute hst (fun m' => by rw [hi]; nofun) nofun
  have hq : Origin P ((s.setRoute i (.trimming m)).setQueue (P.bucket m)
      ((s.queue (P.bucket m)).put (P.sealQueue i m) now)) := by
    refine hr.setQueue (fun p hp => ?_)
    rcases Coll.mem_keys_put.1 hp with rfl | hp
    · refine ⟨i, m, rfl, ?_, rfl⟩
      show (Function.update s.routes i (.trimming m) i).stored = some m
      rw [Function.update_self]
      rfl
    · exact (h.queue _ p hp).setRoute hst
  exact hq

/-- `ZREM` of an envelope. -/
theorem Origin.del (h : Origin P s) (b : Bucket) (p : π) : Origin P (s.setQueue b ((s.queue b).del p)) :=
  h.setQueue (fun p' hp' => h.queue b p' (Coll.mem_keys_del.1 hp').2)

theorem Origin.list (h : Origin P s) {n : ℕ} {now : ℤ} {b : Bucket} (hn : s.drains n = .listing now b) :
    Origin P (s.setDrain n (.sending now b (s.queue b).zrange)) := by
  refine h.setDrain nofun (fun b' p hp => ?_) (fun b' => ?_) (fun b' p hp hq hu hr => ?_)
  · simp only [Drain.rest] at hp
    split at hp
    · rename_i hb
      subst hb
      exact h.queue b p ((keys_zrange _).mem_iff.1 hp)
    · cases hp
  · simp only [Drain.rest]
    split
    · exact zrange_nodup _
    · exact List.nodup_nil
  · rw [hn] at hu
    cases b <;> cases b' <;> simp_all [Drain.unread, Drain.rest]

theorem origin_drainStep (h : Origin P s) {n : ℕ} {now : ℤ} {sendOk : Bool} {s' : State π μ}
    (hs : s.drainStep P n now sendOk = some s') : Origin P s' := by
  unfold drainStep at hs
  split at hs
  · cases hs
  · cases hs
  · rename_i hn
    cases hs
    exact h.forget nofun (fun _ => List.nil_sublist _) (fun b hu => by rw [hn] at hu; cases hu)
  · rename_i hn
    cases hs
    exact h.list hn
  · rename_i hn
    cases hs
    exact h.forget nofun (fun _ => List.nil_sublist _) (fun b hu => by rw [hn] at hu; cases b <;> exact hu)
  · cases hs
    exact h.forget nofun (fun _ => List.nil_sublist _) (fun _ _ => rfl)
  · rename_i now' b p rest hn
    have hforget : ∀ {s : State π μ}, Origin P s → s.drains n = .sending now' b (p :: rest) →
        Origin P (s.setDrain n (.sending now' b rest)) := fun {s} h hn => by
      refine h.forget nofun (fun b' => ?_) (fun b' hu => ?_)
      · rw [hn]
        simp only [Drain.rest]
        split
        · exact List.sublist_cons_self _ _
        · exact List.nil_sublist _
      · rw [hn] at hu
        cases b <;> exact hu
    split at hs
    · rename_i hv
      cases hs
      have hd := hforget (h.del b p) hn
      refine ⟨hd.queue, hd.rest, hd.restNodup, hd.sent, hd.nodup, hd.unopened, fun p' now'' hp' => ?_⟩
      rcases List.mem_cons.1 hp' with hp' | hp'
      · cases hp'
        exact h.discard hn hv
      · exact h.discarded p' now'' hp'
    · cases hs
      exact hforget h hn
    · split at hs
      · cases hs
        exact h.drainSend hn
      · cases hs
        exact h.forget nofun (fun _ => List.nil_sublist _) (fun _ _ => rfl)
  · rename_i now' b p rest hn
    cases hs
    refine (h.del b p).forget nofun (fun b' => ?_) (fun b' hu => ?_)
    · show List.Sublist _ ((s.drains n).rest b')
      rw [hn]
      exact List.Sublist.refl _
    · have hu : (s.drains n).unread b' = false := hu
      rw [hn] at hu
      cases b <;> exact hu

theorem origin_step (s : State π μ) (e : Event μ) (s' : State π μ) (h : Origin P s) (hs : step P s e = some s') :
    Origin P s' := by
  cases e with
  | route i m =>
    simp only [step] at hs
    split at hs
    · rename_i hi
      split at hs
      · cases hs
      · cases hs
        exact h.route hi
    · cases hs
  | lookup i =>
    simp only [step] at hs
    split at hs
    · rename_i m hi
      have hmove : ∀ r : Route μ, (∀ m n, r = .sending m n → s.drains n ≠ .idle) → Origin P (s.setRoute i r) :=
        fun r => h.setRoute (fun m' hm => by rw [hi] at hm; cases hm) (fun m' => by rw [hi]; nofun)
      split at hs
      · cases hs
        exact hmove _ nofun
      · rename_i n hc
        split at hs
        · cases hs
          exact hmove _ nofun
        · cases hs
          refine hmove _ (fun m' n' hr hn => ?_)
          cases hr
          exact (h.unopened n hn).2.1 hc
    · cases hs
  | send i sendOk =>
    simp only [step] at hs
    split at hs
    · rename_i m n hi
      split at hs
      · cases hs
        exact h.send hi
      · cases hs
        exact h.setRoute (fun m' hm => by rw [hi] at hm; cases hm) (fun m' => by rw [hi]; nofun) nofun
    · cases hs
  | queue i now =>
    simp only [step] at hs
    split at hs
    · rename_i m hi
      split at hs
      · cases hs
        exact h.setRoute (fun m' hm => by rw [hi] at hm; cases hm) (fun m' => by rw [hi]; nofun) nofun
      · cases hs
        exact h.enqueue hi now
    · cases hs
  | trim i =>
    simp only [step] at hs
    split at hs
    · rename_i m hi
      cases hs
      exact (h.setQueue (fun p hp => h.queue _ p (mem_keys_trim hp))).setRoute
        (fun m' hm => by simp only [setQueue, hi] at hm; exact hm) (fun m' => by simp only [setQueue, hi]; nofun) nofun
    · cases hs
  | expire i =>
    simp only [step] at hs
    split at hs
    · rename_i m hi
      cases hs
      exact (h.setQueue (fun p hp => h.queue _ p (by rwa [Coll.keys_expire] at hp))).setRoute
        (fun m' hm => by simp only [setQueue, hi] at hm; exact hm) (fun m' => by simp only [setQueue, hi]; nofun) nofun
    · cases hs
  | connect n callCapable others shuttingDown =>
    simp only [step] at hs
    split at hs
    · rename_i hn
      split at hs
      · cases hs
        exact h
      · split at hs
        · cases hs
          exact h
        · rename_i hc
          cases hs
          exact h.connect hn (Connections.current_admitSession hc)
    · cases hs
  | drain n now sendOk => exact origin_drainStep h hs
  | abandon n =>
    simp only [step] at hs
    split at hs
    · cases hs
    · cases hs
      exact h.forget nofun (fun _ => List.nil_sublist _) (fun _ _ => rfl)
  | disconnect session =>
    cases hs
    refine ⟨h.queue, h.rest, h.restNodup, h.sent, h.nodup, fun j hj => ?_, h.discarded⟩
    obtain ⟨hsj, hc, hr⟩ := h.unopened j hj
    exact ⟨hsj, fun hcj => hc (Connections.current_of_remove hcj), hr⟩
  | elapse d =>
    cases hs
    exact ⟨fun b p hp => h.queue b p (mem_keys_sweep hp), h.rest, h.restNodup, h.sent, h.nodup, h.unopened,
      h.discarded⟩

theorem origin_run {es : List (Event μ)} (hr : run (step P) init es = some s) : Origin P s :=
  run_invariant (Origin P) origin_step origin_init hr

end State

/-! ## Nothing is left behind -/

def Route.toQueue : Route μ → Option μ
  | .queueing m => some m
  | _ => none

def Drain.sends (P : ServerPrivacy π μ) (callCapable : Bool) : Drain π → Bool
  | .sending now _ (p :: _) =>
    match verdict P callCapable now p with
    | .deliver _ => true
    | _ => false
  | _ => false

theorem verdict_ne_leave (now : ℤ) (p : π) : verdict P true now p ≠ .leave := by
  unfold verdict
  split
  · simp
  · split
    · simp
    · simp

namespace State

def Delivered (s : State π μ) (n : ℕ) : Prop :=
  (∀ p ∈ (s.queue .message).keys, p ∈ s.sent n) ∧ ∀ p ∈ (s.queue .file).keys, p ∈ s.sent n

/-- **The condition under which nothing is left behind**: an envelope is put into a queue only when no call-capable
session is registered or its drain is still to read that bucket, and the drain of such a session ends early, for a
failed send or Redis call, only when all that is queued has been sent to it. -/
def Sound (P : ServerPrivacy π μ) (s : State π μ) : Event μ → Prop
  | .queue i _ => ∀ m ∈ (s.routes i).toQueue, P.isTransient m = false → ∀ n ∈ s.connections.current,
    s.callCapable n = true → (s.drains n).unread (P.bucket m) = true
  | .drain n _ sendOk => (s.drains n).sends P (s.callCapable n) = true → sendOk = false →
    s.connections.current = some n → s.callCapable n = true → s.Delivered n
  | .abandon n => s.connections.current = some n → s.callCapable n = true → s.Delivered n
  | _ => True

instance [DecidableEq π] (s : State π μ) (n : ℕ) : Decidable (s.Delivered n) :=
  inferInstanceAs (Decidable (_ ∧ _))

instance [DecidableEq π] (s : State π μ) : ∀ e, Decidable (s.Sound P e)
  | .queue i _ => inferInstanceAs (Decidable (∀ m ∈ (s.routes i).toQueue, P.isTransient m = false →
    ∀ n ∈ s.connections.current, s.callCapable n = true → (s.drains n).unread (P.bucket m) = true))
  | .drain n _ sendOk => inferInstanceAs (Decidable ((s.drains n).sends P (s.callCapable n) = true → sendOk = false →
    s.connections.current = some n → s.callCapable n = true → s.Delivered n))
  | .abandon n => inferInstanceAs (Decidable
    (s.connections.current = some n → s.callCapable n = true → s.Delivered n))
  | .route .. | .lookup _ | .send .. | .trim _ | .expire _ | .connect .. | .disconnect _ | .elapse _ =>
    inferInstanceAs (Decidable True)

/-- What is queued has been sent to the registered call-capable session, or its drain is still to deal with it. -/
def Coverage (s : State π μ) : Prop :=
  ∀ n, s.connections.current = some n → s.callCapable n = true → ∀ b p, p ∈ (s.queue b).keys →
    p ∈ s.sent n ∨ (s.drains n).unread b = true ∨ p ∈ (s.drains n).rest b

variable {s : State π μ}

theorem Delivered.mem {n : ℕ} (h : s.Delivered n) {b : Bucket} {p : π} (hp : p ∈ (s.queue b).keys) : p ∈ s.sent n := by
  cases b with
  | message => exact h.1 p hp
  | file => exact h.2 p hp

theorem Coverage.setQueue (h : Coverage s) {b : Bucket} {c : Coll π ℤ} (hc : ∀ p ∈ c.keys, p ∈ (s.queue b).keys) :
    Coverage (s.setQueue b c) := by
  intro n hn hcap b' p hp
  have hp : p ∈ (Function.update s.queue b c b').keys := hp
  by_cases hb : b' = b
  · subst hb
    rw [Function.update_self] at hp
    exact h n hn hcap b' p (hc p hp)
  · rw [Function.update_of_ne hb] at hp
    exact h n hn hcap b' p hp

theorem Coverage.setDrain (h : Coverage s) {n : ℕ} {d : Drain π}
    (hd : s.connections.current = some n → s.callCapable n = true → ∀ b p, p ∈ (s.queue b).keys →
      (s.drains n).unread b = true ∨ p ∈ (s.drains n).rest b → p ∈ s.sent n ∨ d.unread b = true ∨ p ∈ d.rest b) :
    Coverage (s.setDrain n d) := by
  intro j hj hcap b p hp
  show p ∈ s.sent j ∨ (Function.update s.drains n d j).unread b = true ∨ p ∈ (Function.update s.drains n d j).rest b
  by_cases hjn : j = n
  · subst hjn
    rw [Function.update_self]
    rcases h j hj hcap b p hp with hs | hc
    · exact .inl hs
    · exact hd hj hcap b p hp hc
  · rw [Function.update_of_ne hjn]
    exact h j hj hcap b p hp

theorem Coverage.deliver (h : Coverage s) {n : ℕ} {p : π} : Coverage (s.deliver n p) := by
  intro j hj hcap b p' hp'
  rcases h j hj hcap b p' hp' with hs | hc
  · refine .inl ?_
    show p' ∈ Function.update s.sent n (p :: s.sent n) j
    by_cases hjn : j = n
    · subst hjn
      rw [Function.update_self]
      exact List.mem_cons_of_mem _ hs
    · rwa [Function.update_of_ne hjn]
  · exact .inr hc

theorem Coverage.delivered (h : Coverage s) {n : ℕ} (hn : s.connections.current = some n)
    (hcap : s.callCapable n = true) (hd : (s.drains n).finished = true) : s.Delivered n := by
  have hmem : ∀ b p, p ∈ (s.queue b).keys → p ∈ s.sent n := fun b p hp => by
    rcases h n hn hcap b p hp with hs | hu | hr
    · exact hs
    · generalize s.drains n = d at hd hu
      cases d with
      | idle | done => cases hu
      | starting | listing | sending | removing => cases hd
    · generalize s.drains n = d at hd hr
      cases d with
      | idle | done => cases hr
      | starting | listing | sending | removing => cases hd
  exact ⟨hmem .message, hmem .file⟩

theorem coverage_connect {n : ℕ} {c : Connections} {callCapable : Bool} (hc : c.current = some n) :
    Coverage { s.setDrain n .starting with
      connections := c, callCapable := Function.update s.callCapable n callCapable } := by
  intro j hj _ b p _
  have hj : c.current = some j := hj
  rw [hc, Option.some.injEq] at hj
  subst hj
  refine .inr (.inl ?_)
  show (Function.update s.drains n .starting n).unread b = true
  rw [Function.update_self]
  rfl

variable [LinearOrder π]

/-- `ZADD` with the registered session's drain still to read the bucket. -/
theorem Coverage.enqueue (h : Coverage s) {b : Bucket} {p : π} {now : ℤ}
    (hok : ∀ n ∈ s.connections.current, s.callCapable n = true → (s.drains n).unread b = true) :
    Coverage (s.setQueue b ((s.queue b).put p now)) := by
  intro n hn hcap b' p' hp'
  have hp' : p' ∈ (Function.update s.queue b ((s.queue b).put p now) b').keys := hp'
  by_cases hb : b' = b
  · subst hb
    exact .inr (.inl (hok n hn hcap))
  · rw [Function.update_of_ne hb] at hp'
    exact h n hn hcap b' p' hp'

theorem coverage_drainStep (h : Coverage s) {n : ℕ} {now : ℤ} {sendOk : Bool} {s' : State π μ}
    (hok : s.Sound P (.drain n now sendOk)) (hs : s.drainStep P n now sendOk = some s') : Coverage s' := by
  unfold drainStep at hs
  split at hs
  · cases hs
  · cases hs
  · rename_i hn
    cases hs
    exact h.setDrain (fun _ _ b p _ _ => .inr (.inl rfl))
  · rename_i now' b hn
    cases hs
    refine h.setDrain (fun _ _ b' p hp hc => .inr ?_)
    rw [hn] at hc
    cases b <;> cases b' <;> simp_all [Drain.unread, Drain.rest, (keys_zrange _).mem_iff]
  · rename_i hn
    cases hs
    refine h.setDrain (fun _ _ b p hp hc => .inr ?_)
    rw [hn] at hc
    cases b <;> simp_all [Drain.unread, Drain.rest]
  · rename_i hn
    cases hs
    refine h.setDrain (fun _ _ b p hp hc => .inr ?_)
    rw [hn] at hc
    cases b <;> simp_all [Drain.unread, Drain.rest]
  · rename_i now' b p rest hn
    -- past the head of the list, what is left of the buckets is as before
    have hrest : ∀ b' p', ¬ (b' = b ∧ p' = p) → (s.drains n).unread b' = true ∨ p' ∈ (s.drains n).rest b' →
        (Drain.sending now' b rest).unread b' = true ∨ p' ∈ (Drain.sending now' b rest).rest b' :=
          fun b' p' hne hc => by
      rw [hn] at hc
      cases b <;> cases b' <;> simp_all [Drain.unread, Drain.rest]
    split at hs
    · cases hs
      have hd : Coverage ((s.setQueue b ((s.queue b).del p)).setDrain n (.sending now' b rest)) := by
        refine (h.setQueue (fun _ hp' => (Coll.mem_keys_del.1 hp').2)).setDrain (fun _ _ b' p' hp' hc => .inr ?_)
        refine hrest b' p' ?_ hc
        rintro ⟨rfl, rfl⟩
        have hp' : p' ∈ (Function.update s.queue b' ((s.queue b').del p') b').keys := hp'
        rw [Function.update_self] at hp'
        exact (Coll.mem_keys_del.1 hp').1 rfl
      exact hd
    · rename_i hv
      cases hs
      refine h.setDrain (fun _ hcap b' p' hp' hc => ?_)
      rw [hcap] at hv
      exact absurd hv (verdict_ne_leave now' p)
    · rename_i m hv
      have hsends : (s.drains n).sends P (s.callCapable n) = true := by
        rw [hn]
        simp only [Drain.sends, hv]
      split at hs
      · cases hs
        refine h.deliver.setDrain (fun _ _ b' p' hp' hc => ?_)
        by_cases hbp : b' = b ∧ p' = p
        · refine .inl ?_
          show p' ∈ Function.update s.sent n (p :: s.sent n) n
          rw [Function.update_self, hbp.2]
          exact List.mem_cons_self
        · refine .inr ?_
          have := hrest b' p' hbp hc
          cases b <;> exact this
      · rename_i hfail
        cases hs
        refine h.setDrain (fun hcur hcap b' p' hp' hc => .inl ?_)
        exact (hok hsends (by simpa using hfail) hcur hcap).mem hp'
  · rename_i now' b p rest hn
    cases hs
    refine (h.setQueue (fun _ hp' => (Coll.mem_keys_del.1 hp').2)).setDrain (fun _ _ b' p' hp' hc => .inr ?_)
    have hc : (s.drains n).unread b' = true ∨ p' ∈ (s.drains n).rest b' := hc
    rw [hn] at hc
    cases b <;> exact hc

theorem coverage_step (s : State π μ) (e : Event μ) (s' : State π μ) (h : Coverage s) (hok : s.Sound P e)
    (hs : step P s e = some s') : Coverage s' := by
  cases e with
  | route i m =>
    simp only [step] at hs
    split at hs
    · split at hs
      · cases hs
      · cases hs
        exact h
    · cases hs
  | lookup i =>
    simp only [step] at hs
    split at hs
    · split at hs
      · cases hs
        exact h
      · split at hs
        · cases hs
          exact h
        · cases hs
          exact h
    · cases hs
  | send i sendOk =>
    simp only [step] at hs
    split at hs
    · split at hs
      · cases hs
        exact h.deliver
      · cases hs
        exact h
    · cases hs
  | queue i now =>
    simp only [step] at hs
    split at hs
    · rename_i m hi
      split at hs
      · cases hs
        exact h
      · rename_i ht
        cases hs
        exact h.enqueue (hok m (by rw [hi]; rfl) (by simpa using ht))
    · cases hs
  | trim i =>
    simp only [step] at hs
    split at hs
    · cases hs
      exact h.setQueue (fun _ hp => mem_keys_trim hp)
    · cases hs
  | expire i =>
    simp only [step] at hs
    split at hs
    · cases hs
      exact h.setQueue (fun _ hp => by rwa [Coll.keys_expire] at hp)
    · cases hs
  | connect n callCapable others shuttingDown =>
    simp only [step] at hs
    split at hs
    · split at hs
      · cases hs
        exact h
      · split at hs
        · cases hs
          exact h
        · rename_i hc
          cases hs
          exact coverage_connect (Connections.current_admitSession hc)
    · cases hs
  | drain n now sendOk => exact coverage_drainStep h hok hs
  | abandon n =>
    simp only [step] at hs
    split at hs
    · cases hs
    · cases hs
      exact h.setDrain (fun hcur hcap _ _ hp _ => .inl ((hok hcur hcap).mem hp))
  | disconnect session =>
    cases hs
    exact fun n hn hcap b p hp => h n (Connections.current_of_remove hn) hcap b p hp
  | elapse d =>
    cases hs
    exact fun n hn hcap b p hp => h n hn hcap b p (mem_keys_sweep hp)

theorem coverage_run {es : List (Event μ)} (hr : run (step P) init es = some s)
    (hm : Meets (step P) (Sound P) init es) : Coverage s :=
  Meets.invariant Coverage coverage_step (fun _ hn => by cases hn) hm hr

end State

/-- **What the offline queues promise.**  In every run, no frame is sent twice to a session and a drain discards only
stale offers; in every run that meets the condition, with the drain of the registered call-capable session finished,
all that is queued has been sent to it. -/
theorem offline_run [LinearOrder π] {s : State π μ} {es : List (Event μ)}
    (hr : run (State.step P) State.init es = some s) :
    (∀ n, (s.sent n).Nodup) ∧
    (∀ p now, (p, now) ∈ s.discarded → ∃ m, P.openQueue p = some m ∧ P.stale now m = true) ∧
    (Meets (State.step P) (State.Sound P) State.init es → ∀ n, s.connections.current = some n →
      s.callCapable n = true → (s.drains n).finished = true → s.Delivered n) := by
  have h := State.origin_run hr
  refine ⟨h.nodup, h.discarded, fun hm n hn hcap hd => ?_⟩
  exact (State.coverage_run hr hm).delivered hn hcap hd

/-- **Nothing comes from nowhere**: what a session was sent was routed to the recipient, and what is in a queue was
stored by a call that has sealed it, in the queue of its kind. -/
theorem sent_origin [LinearOrder π] {s : State π μ} {es : List (Event μ)}
    (hr : run (State.step P) State.init es = some s) :
    (∀ n, ∀ p ∈ s.sent n, ∃ i m, p = P.sealQueue i m ∧ P.openQueue p = some m ∧
      (s.routes i = .routed m ∨ (s.routes i).stored = some m)) ∧
    ∀ b, ∀ p ∈ (s.queue b).keys, ∃ i m, p = P.sealQueue i m ∧ P.bucket m = b ∧ (s.routes i).stored = some m := by
  have h := State.origin_run hr
  refine ⟨fun n p hp => ?_, fun b p hp => ?_⟩
  · rcases h.sent n p hp with ⟨i, m, rfl, hrouted⟩ | ⟨b, ⟨i, m, rfl, hstored, -⟩, -⟩
    · exact ⟨i, m, rfl, P.open_seal i m, .inl hrouted⟩
    · exact ⟨i, m, rfl, P.open_seal i m, .inr hstored⟩
  · obtain ⟨i, m, rfl, hstored, hb⟩ := h.queue b p hp
    exact ⟨i, m, rfl, hb, hstored⟩

/-- Frames are call controls (`false`) and offers made at time 0 (`true`), sealed by pairing with the nonce. -/
def plainPrivacy : ServerPrivacy ℕ Bool where
  offlineQueueTtlSeconds := 900
  offlineFileTtlSeconds := 300
  sealQueue k m := 2 * k + m.toNat
  openQueue p := some (decide (p % 2 = 1))
  len _ := 1
  extract m := some (if m then .sdpOffer else .callControl)
  extractTimestamp m := if m then some 0 else none
  open_seal k m := by cases m <;> simp [Bool.toNat]
  seal_fresh k k' m m' h := by cases m <;> cases m' <;> simp [Bool.toNat] at h ⊢ <;> omega

/-- The offer of call 1 is stale and the control of call 0 waits when session 0 connects and drains. -/
def queuedBefore : List (Event Bool) :=
  [.route 0 false, .lookup 0, .queue 0 40000, .trim 0, .expire 0, .route 1 true, .lookup 1, .queue 1 40001, .trim 1,
    .expire 1, .connect 0 true 0 false, .drain 0 40002 true, .drain 0 0 true, .drain 0 0 true, .drain 0 0 true,
    .drain 0 0 true, .drain 0 0 true, .drain 0 0 true, .drain 0 0 true]

theorem offline_queuedBefore : ∃ s : State ℕ Bool,
    run (State.step plainPrivacy) State.init queuedBefore = some s ∧ s.sent 0 = [0] ∧ s.discarded = [(3, 40002)] ∧
    (s.sent 0).Nodup ∧ s.Delivered 0 := by
  obtain ⟨s, hs, hn, hcap, hd, hsent, hdis⟩ : ∃ s : State ℕ Bool,
      run (State.step plainPrivacy) State.init queuedBefore = some s ∧ s.connections.current = some 0 ∧
      s.callCapable 0 = true ∧ (s.drains 0).finished = true ∧ s.sent 0 = [0] ∧ s.discarded = [(3, 40002)] :=
    exists_run _ _ _ (by decide +kernel)
  have h := offline_run hs
  exact ⟨s, hs, hsent, hdis, h.1 0, h.2.2 (by decide +kernel) 0 hn hcap hd⟩

theorem sent_origin_queuedBefore : ∃ s : State ℕ Bool,
    run (State.step plainPrivacy) State.init queuedBefore = some s ∧
      ∀ p ∈ s.sent 0, ∃ i m, p = plainPrivacy.sealQueue i m ∧ plainPrivacy.openQueue p = some m ∧
        (s.routes i = .routed m ∨ (s.routes i).stored = some m) := by
  obtain ⟨s, hs, -⟩ : ∃ s : State ℕ Bool, run (State.step plainPrivacy) State.init queuedBefore = some s ∧
      s.sent 0 = [0] := exists_run _ _ _ (by decide +kernel)
  exact ⟨s, hs, (sent_origin hs).1 0⟩

/-- Session 0 connects and drains between the lookup of call 0 and its `ZADD`. -/
def connectedBetween : List (Event Bool) :=
  [.route 0 false, .lookup 0, .connect 0 true 0 false, .drain 0 0 true, .drain 0 0 true, .drain 0 0 true,
    .drain 0 0 true, .drain 0 0 true, .queue 0 0, .trim 0, .expire 0]

/-- **A session that connects between the lookup and the queueing is never sent the frame.** -/
theorem offline_strands : ∃ s : State ℕ Bool,
    run (State.step plainPrivacy) State.init connectedBetween = some s ∧
    (∀ n, (s.drains n).finished = true) ∧ (∀ i, (s.routes i).finished = true) ∧
    s.connections.current = some 0 ∧ s.callCapable 0 = true ∧
    (s.queue .message).keys = [plainPrivacy.sealQueue 0 false] ∧ plainPrivacy.isTransient false = false ∧
    s.sent 0 = [] := by
  refine ⟨_, rfl, fun n => ?_, fun i => ?_, by decide, by decide, by decide, by decide, by decide⟩
  · match n with
    | 0 => rfl
    | n + 1 => rfl
  · match i with
    | 0 => rfl
    | i + 1 => rfl

end Offline
end SecureChat
