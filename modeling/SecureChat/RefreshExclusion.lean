import SecureChat.RefreshLock
/-!
# RefreshExclusion — which calls the refresh lock keeps apart

`Effect` says once what a step of a call does to the owner file; the exclusion is read from it.  While every owner file
is removed within 90 seconds and none but the judged one is removed as stale, the file of a call stays in place until
the call itself removes it.
-/
namespace SecureChat
namespace RefreshLock

open Runs

variable {I : Type}

/-! ## The owner file -/

/-- The owner files of the calls are different ones, and a call's file is in place and young as long as its isolate
runs; what a call has judged stale is nobody's. -/
structure Excludes (s : Process I) (ts : List (Call I)) : Prop where
  file : ∀ f ∈ s.owner, f.number < s.created
  known : ∀ c ∈ ts, ∀ k ∈ c.phase.owner, k < s.created
  distinct : (ts.filterMap Call.owner).Nodup
  inPlace : ∀ c ∈ ts, s.alive c.isolate = true → ∀ k ∈ c.phase.owner, ∃ f ∈ s.owner, f.number = k ∧
    s.now ≤ f.modified + isolateLockStale
  asked : ∀ c ∈ ts, ∀ a ∈ c.phase.asked, a ≤ s.now
  judged : ∀ c ∈ ts, ∀ n ∈ c.phase.judged, n < s.created ∧
    ∀ d ∈ ts, s.alive d.isolate = true → d.phase.owner ≠ some n

namespace Excludes

variable {s : Process I} {c : Call I} {o ts ts' : List (Call I)}

theorem perm (hp : List.Perm ts ts') (h : Excludes s ts) : Excludes s ts' where
  file := h.file
  known c hc := h.known c (hp.mem_iff.2 hc)
  distinct := (hp.filterMap _).nodup_iff.1 h.distinct
  inPlace c hc := h.inPlace c (hp.mem_iff.2 hc)
  asked c hc := h.asked c (hp.mem_iff.2 hc)
  judged c hc n hn := ⟨(h.judged c (hp.mem_iff.2 hc) n hn).1, fun d hd =>
    (h.judged c (hp.mem_iff.2 hc) n hn).2 d (hp.mem_iff.2 hd)⟩

theorem spawn (i : I) (h : Excludes s ts) : Excludes s (withRefreshLock i :: ts) where
  file := h.file
  known c hc k hk := by
    rcases List.mem_cons.1 hc with rfl | hc
    · cases hk
    · exact h.known c hc k hk
  distinct := h.distinct
  inPlace c hc hs k hk := by
    rcases List.mem_cons.1 hc with rfl | hc
    · cases hk
    · exact h.inPlace c hc hs k hk
  asked c hc a ha := by
    rcases List.mem_cons.1 hc with rfl | hc
    · cases ha
    · exact h.asked c hc a ha
  judged c hc n hn := by
    rcases List.mem_cons.1 hc with rfl | hc
    · cases hn
    · refine ⟨(h.judged c hc n hn).1, fun d hd hs => ?_⟩
      rcases List.mem_cons.1 hd with rfl | hd
      · exact nofun
      · exact (h.judged c hc n hn).2 d hd hs

theorem pass {n : ℕ} (ht : ∀ d ∈ ts, s.alive d.isolate = true → ∀ f ∈ s.owner, d.phase.owner = some f.number →
    s.now + n ≤ f.modified + isolateLockStale) (h : Excludes s ts) : Excludes (s.pass n) ts where
  file := h.file
  known := h.known
  distinct := h.distinct
  inPlace c hc hs k hk := by
    obtain ⟨f, hf, rfl, -⟩ := h.inPlace c hc hs k hk
    exact ⟨f, hf, rfl, ht c hc hs f hf hk⟩
  asked c hc a ha := Nat.le_trans (h.asked c hc a ha) (Nat.le_add_right _ _)
  judged := h.judged

theorem not_owner {k : ℕ} (h : Excludes s (c :: o)) (hk : c.phase.owner = some k) :
    ∀ d ∈ o, d.phase.owner ≠ some k := by
  have hk : c.owner = some k := hk
  have hd := h.distinct
  rw [List.filterMap_cons_some hk, List.nodup_cons] at hd
  exact fun d hd' he => hd.1 (List.mem_filterMap.2 ⟨d, hd', he⟩)

theorem distinct_tail (h : Excludes s (c :: o)) : (o.filterMap Call.owner).Nodup :=
  h.distinct.sublist ((List.sublist_cons_self c o).filterMap _)

theorem pairwise (h : Excludes s ts) :
    ts.Pairwise fun c d => s.alive c.isolate = true → s.alive d.isolate = true → c.owner = none ∨ d.owner = none := by
  refine (List.pairwise_filterMap.1 h.distinct).imp_of_mem fun {c d} hc hd hne hsc hsd => ?_
  cases hk : c.owner with
  | none => exact .inl rfl
  | some k =>
    cases hl : d.owner with
    | none => exact .inr rfl
    | some l =>
      obtain ⟨f, hf, rfl, -⟩ := h.inPlace c hc hsc k hk
      obtain ⟨g, hg, rfl, -⟩ := h.inPlace d hd hsd l hl
      obtain rfl : f = g := Option.some.inj (hf.symm.trans hg)
      exact absurd rfl (hne _ hk _ hl)

theorem deleteOwner {p : Phase} (h : Excludes s (c :: o)) (hp : p.owner = none ∧ p.asked = none ∧ p.judged = none)
    (ho : ∀ d ∈ o, s.alive d.isolate = true → d.phase.owner = none) :
    Excludes s.deleteOwner (c.enter p :: o) where
  file := nofun
  known d hd k hk := by
    rcases List.mem_cons.1 hd with rfl | hd
    · exact absurd (hp.1.symm.trans hk) nofun
    · exact h.known d (List.mem_cons_of_mem c hd) k hk
  distinct := by
    have hnone : (c.enter p).owner = none := hp.1
    rw [List.filterMap_cons_none hnone]
    exact h.distinct_tail
  inPlace d hd hs k hk := by
    rcases List.mem_cons.1 hd with rfl | hd
    · exact absurd (hp.1.symm.trans hk) nofun
    · exact absurd ((ho d hd hs).symm.trans hk) nofun
  asked d hd a ha := by
    rcases List.mem_cons.1 hd with rfl | hd
    · exact absurd (hp.2.1.symm.trans ha) nofun
    · exact h.asked d (List.mem_cons_of_mem c hd) a ha
  judged d hd n hn := by
    rcases List.mem_cons.1 hd with rfl | hd
    · exact absurd (hp.2.2.symm.trans hn) nofun
    · obtain ⟨hlt, hnot⟩ := h.judged d (List.mem_cons_of_mem c hd) n hn
      refine ⟨hlt, fun e he hs => ?_⟩
      rcases List.mem_cons.1 he with rfl | he
      · exact fun hk => absurd (hp.1.symm.trans hk) nofun
      · exact hnot e (List.mem_cons_of_mem c he) hs

end Excludes

/-! ## The steps of a call -/

structure Quiet (s s' : Process I) : Prop where
  now : s'.now = s.now
  owner : s'.owner = s.owner
  created : s'.created = s.created
  alive : s'.alive = s.alive

theorem Quiet.refl (s : Process I) : Quiet s s := ⟨rfl, rfl, rfl, rfl⟩

section Steps

variable [DecidableEq I]

/-- What a step of a call does, as far as the owner file is concerned. -/
inductive Effect (s : Process I) (c : Call I) : Process I → Call I → Prop
  | quiet {s' : Process I} {c' : Call I} (hs : Quiet s s') (isolate : c'.isolate = c.isolate)
      (owner : ∀ k ∈ c'.phase.owner, c.phase.owner = some k) (asked : ∀ a ∈ c'.phase.asked, a ≤ s.now)
      (judged : ∀ n ∈ c'.phase.judged, ∃ f ∈ s.owner, f.number = n ∧ ∃ a ∈ c.phase.asked,
        f.modified + isolateLockStale < a) : Effect s c s' c'
  | creates (modified : ℕ) (owner : s.owner = none) (late : modified ≤ s.now) (early : s.now < modified + 1000) :
      Effect s c (s.createOwner modified) (c.enter (.opening (some s.created)))
  | removesStale {n : ℕ} {p : Phase} (judged : c.phase.judged = some n) (none : p.owner = none ∧ p.asked = none ∧
      p.judged = none) : Effect s c s.deleteOwner (c.enter p)
  | removesOwn {k : ℕ} {p : Phase} (owner : c.phase.owner = some k) (none : p.owner = none ∧ p.asked = none ∧
      p.judged = none) : Effect s c (s.deleteOwner.complete c.isolate) (c.enter p)
  | stops : Effect s c (s.stop c.isolate) c

theorem Effect.plain {s s' : Process I} {c c' : Call I} (hs : Quiet s s') (isolate : c'.isolate = c.isolate)
    (owner : ∀ k ∈ c'.phase.owner, c.phase.owner = some k) (asked : c'.phase.asked = none)
    (judged : c'.phase.judged = none) : Effect s c s' c' := by
  refine .quiet hs isolate owner (fun a ha => ?_) fun n hn => ?_
  · rw [asked] at ha
    cases ha
  · rw [judged] at hn
    cases hn

theorem effect_of_advance {s s' : Process I} {c c' : Call I} {out : Outcome}
    (h : s.advance c c.phase out = some (s', c')) : Effect s c s' c' := by
  obtain ⟨i, t, p, a⟩ := c
  cases out with
  | stops =>
    cases p <;> (cases h; exact .stops)
  | created modified =>
    cases p with
    | creating d l =>
      simp only [Process.advance] at h
      split_ifs at h with hc
      cases h
      exact .creates modified hc.1 hc.2.1 hc.2.2
    | _ => cases h
  | throws =>
    cases p with
    | calling | queued | refused _ _ | fresh _ _ | delaying _ _ _ | unlocking _ _ | finished _ => cases h
    | releasing o f =>
      cases o with
      | none => cases h
      | some k =>
        cases h
        exact .plain ⟨rfl, rfl, rfl, rfl⟩ rfl nofun rfl rfl
    | acting o b n =>
      cases h
      cases b <;> exact .plain (.refl s) rfl (fun _ hk => hk) rfl rfl
    | closing o f =>
      cases h
      exact .plain ⟨rfl, rfl, rfl, rfl⟩ rfl nofun rfl rfl
    | creating _ _ | inspecting _ _ _ | deleting _ _ _ =>
      cases h
      exact .plain (.refl s) rfl nofun rfl rfl
    | opening o | locking o | abandoning o =>
      cases h
      exact .plain (.refl s) rfl (fun _ hk => hk) rfl rfl
  | goes =>
    cases p with
    | creating _ _ | finished _ => cases h
    | calling =>
      cases h
      exact .plain ⟨rfl, rfl, rfl, rfl⟩ rfl nofun rfl rfl
    | queued =>
      simp only [Process.advance] at h
      split_ifs at h
      cases h
      exact .plain (.refl s) rfl nofun rfl rfl
    | refused d l =>
      cases h
      refine .quiet (.refl s) rfl nofun (fun a ha => ?_) nofun
      cases ha
      exact Nat.le_of_eq rfl
    | inspecting d l now =>
      simp only [Process.advance] at h
      cases hf : s.owner with
      | none =>
        rw [hf] at h
        cases h
        exact .plain (.refl s) rfl nofun rfl rfl
      | some file =>
        rw [hf] at h
        by_cases hold : isolateLockStale < now - file.modified
        · simp only [if_pos hold] at h
          cases h
          refine .quiet (.refl s) rfl nofun nofun fun n hn => ?_
          cases hn
          exact ⟨file, hf, rfl, now, rfl, by omega⟩
        · simp only [if_neg hold] at h
          cases h
          exact .plain (.refl s) rfl nofun rfl rfl
    | deleting d l n =>
      cases h
      exact .removesStale rfl ⟨rfl, rfl, rfl⟩
    | fresh d l =>
      by_cases hlate : d < s.now
      · simp only [Process.advance, if_pos hlate] at h
        cases h
        exact .plain (.refl s) rfl nofun rfl rfl
      · simp only [Process.advance, if_neg hlate] at h
        cases h
        exact .plain (.refl s) rfl nofun rfl rfl
    | delaying d l w =>
      by_cases hw : w ≤ s.now
      · simp only [Process.advance, if_pos hw] at h
        cases h
        exact .plain (.refl s) rfl nofun rfl rfl
      · simp only [Process.advance, if_neg hw] at h
        cases h
    | acting o b n =>
      cases h
      cases b <;> exact .plain (.refl s) rfl (fun _ hk => hk) rfl rfl
    | opening o | locking o | abandoning o | unlocking o f | closing o f =>
      cases h
      exact .plain (.refl s) rfl (fun _ hk => hk) rfl rfl
    | releasing o f =>
      cases o with
      | none =>
        cases h
        exact .plain ⟨rfl, rfl, rfl, rfl⟩ rfl nofun rfl rfl
      | some k =>
        cases h
        exact .removesOwn rfl ⟨rfl, rfl, rfl⟩

theorem exec_cases {s s' : Process I} {c c' : Call I} {e : Reading} (h : s.exec c e = some (s', c')) :
    s.alive c.isolate = true ∧ (s.pass e.elapsed).advance c c.phase e.outcome = some (s', c') := by
  unfold Process.exec at h
  split_ifs at h with hs
  exact ⟨hs, h⟩

namespace Excludes

variable {s s' : Process I} {c c' : Call I} {o ts : List (Call I)}

theorem complete (i : I) (h : Excludes s ts) : Excludes (s.complete i) ts :=
  ⟨h.file, h.known, h.distinct, h.inPlace, h.asked, h.judged⟩

/-- **The step lemma**: whatever a call does next, if it removes as stale only what it has judged. -/
theorem effect (h : Excludes s (c :: o)) (hs : s.alive c.isolate = true) (hj : Judged s c)
    (he : Effect s c s' c') : Excludes s' (c' :: o) := by
  cases he with
  | quiet hq hi howner hasked hjudged =>
    have hlive : ∀ d ∈ c' :: o, s'.alive d.isolate = true → ∀ k ∈ d.phase.owner,
        ∃ e ∈ c :: o, s.alive e.isolate = true ∧ e.phase.owner = some k := by
      intro d hd hsd k hk
      rw [hq.alive] at hsd
      rcases List.mem_cons.1 hd with rfl | hd
      · exact ⟨c, List.mem_cons_self, hs, howner k hk⟩
      · exact ⟨d, List.mem_cons_of_mem c hd, hsd, hk⟩
    refine ⟨?_, ?_, ?_, ?_, ?_, ?_⟩
    · rw [hq.owner, hq.created]
      exact h.file
    · intro d hd k hk
      rw [hq.created]
      rcases List.mem_cons.1 hd with rfl | hd
      · exact h.known c List.mem_cons_self k (howner k hk)
      · exact h.known d (List.mem_cons_of_mem c hd) k hk
    · cases hk : c'.owner with
      | none =>
        rw [List.filterMap_cons_none hk]
        exact h.distinct_tail
      | some k =>
        have hold : c.owner = some k := howner k hk
        have hd := h.distinct
        rw [List.filterMap_cons_some hold] at hd
        rwa [List.filterMap_cons_some hk]
    · intro d hd hsd k hk
      obtain ⟨e, hem, hse, hek⟩ := hlive d hd hsd k hk
      rw [hq.owner, hq.now]
      exact h.inPlace e hem hse k hek
    · intro d hd a ha
      rw [hq.now]
      rcases List.mem_cons.1 hd with rfl | hd
      · exact hasked a ha
      · exact h.asked d (List.mem_cons_of_mem c hd) a ha
    · intro d hd n hn
      rw [hq.created]
      have hold : n < s.created ∧ ∀ e ∈ c :: o, s.alive e.isolate = true → e.phase.owner ≠ some n := by
        rcases List.mem_cons.1 hd with rfl | hd
        · -- the file has just been judged: it is older than any that a call still holds
          obtain ⟨f, hf, rfl, a, ha, hlt⟩ := hjudged n hn
          refine ⟨h.file f hf, fun e he hse hek => ?_⟩
          obtain ⟨g, hg, -, hyoung⟩ := h.inPlace e he hse _ hek
          obtain rfl : f = g := Option.some.inj (hf.symm.trans hg)
          have hle := h.asked c List.mem_cons_self a ha
          omega
        · exact h.judged d (List.mem_cons_of_mem c hd) n hn
      refine ⟨hold.1, fun e he hse hek => ?_⟩
      obtain ⟨e', he', hse', hek'⟩ := hlive e he hse n hek
      exact hold.2 e' he' hse' hek'
  | creates modified howner hlate hearly =>
    have hnone : ∀ d ∈ c :: o, s.alive d.isolate = true → d.phase.owner = none := by
      intro d hd hsd
      cases hk : d.phase.owner with
      | none => rfl
      | some k =>
        obtain ⟨f, hf, -⟩ := h.inPlace d hd hsd k hk
        exact absurd (howner.symm.trans hf) nofun
    refine ⟨?_, ?_, ?_, ?_, ?_, ?_⟩
    · intro f hf
      cases hf
      exact Nat.lt_succ_self _
    · intro d hd k hk
      rcases List.mem_cons.1 hd with rfl | hd
      · cases hk
        exact Nat.lt_succ_self _
      · exact Nat.lt_succ_of_lt (h.known d (List.mem_cons_of_mem c hd) k hk)
    · have hown : (c.enter (.opening (some s.created))).owner = some s.created := rfl
      rw [List.filterMap_cons_some hown, List.nodup_cons]
      refine ⟨fun hm => ?_, h.distinct_tail⟩
      obtain ⟨d, hd, hk⟩ := List.mem_filterMap.1 hm
      exact absurd (h.known d (List.mem_cons_of_mem c hd) _ hk) (Nat.lt_irrefl _)
    · intro d hd hsd k hk
      rcases List.mem_cons.1 hd with rfl | hd
      · cases hk
        refine ⟨_, rfl, rfl, ?_⟩
        show s.now ≤ modified + 90000
        omega
      · exact absurd ((hnone d (List.mem_cons_of_mem c hd) hsd).symm.trans hk) nofun
    · intro d hd a ha
      rcases List.mem_cons.1 hd with rfl | hd
      · cases ha
      · exact h.asked d (List.mem_cons_of_mem c hd) a ha
    · intro d hd n hn
      rcases List.mem_cons.1 hd with rfl | hd
      · cases hn
      · obtain ⟨hlt, hnot⟩ := h.judged d (List.mem_cons_of_mem c hd) n hn
        refine ⟨Nat.lt_succ_of_lt hlt, fun e he hse => ?_⟩
        rcases List.mem_cons.1 he with rfl | he
        · intro hk
          cases hk
          exact absurd hlt (Nat.lt_irrefl _)
        · exact hnot e (List.mem_cons_of_mem c he) hse
  | removesStale hn hp =>
    refine h.deleteOwner hp fun d hd hsd => ?_
    cases hk : d.phase.owner with
    | none => rfl
    | some k =>
      obtain ⟨f, hf, rfl, -⟩ := h.inPlace d (List.mem_cons_of_mem c hd) hsd k hk
      have hnot := (h.judged c List.mem_cons_self _ hn).2 d (List.mem_cons_of_mem c hd) hsd
      rw [← hj _ hn f hf] at hnot
      exact absurd hk hnot
  | removesOwn hk hp =>
    refine (h.deleteOwner hp fun d hd hsd => ?_).complete c.isolate
    cases hkd : d.phase.owner with
    | none => rfl
    | some k' =>
      obtain ⟨f, hf, hnum, -⟩ := h.inPlace c List.mem_cons_self hs _ hk
      obtain ⟨f', hf', hnum', -⟩ := h.inPlace d (List.mem_cons_of_mem c hd) hsd k' hkd
      obtain rfl : f = f' := Option.some.inj (hf.symm.trans hf')
      rw [← hnum', hnum] at hkd
      exact absurd hkd (h.not_owner hk d hd)
  | stops =>
    have hlive : ∀ {i : I}, (s.stop c.isolate).alive i = true → s.alive i = true := by
      intro i hi
      have hi : Function.update s.alive c.isolate false i = true := hi
      by_cases hci : i = c.isolate
      · rw [hci, Function.update_self] at hi
        cases hi
      · rwa [Function.update_of_ne hci] at hi
    exact ⟨h.file, h.known, h.distinct, fun d hd hsd => h.inPlace d hd (hlive hsd), h.asked,
      fun d hd n hn => ⟨(h.judged d hd n hn).1, fun e he hse => (h.judged d hd n hn).2 e he (hlive hse)⟩⟩

theorem exec {e : Reading} (h : Excludes s (c :: o)) (hsafe : Safe s c e o) (he : s.exec c e = some (s', c')) :
    Excludes s' (c' :: o) := by
  obtain ⟨hs, he⟩ := exec_cases he
  exact (h.pass hsafe.1).effect hs hsafe.2 (effect_of_advance he)

end Excludes

/-! ## The queue of an isolate -/

def Phase.Counts : Phase → ℕ → Prop
  | .calling, n | .queued, n | .creating _ _, n | .refused _ _, n | .inspecting _ _ _, n | .deleting _ _ _, n
  | .fresh _ _, n | .delaying _ _ _, n | .opening _, n | .locking _, n | .abandoning _, n => n = 0
  | .acting _ _ _, n => n = 1
  | .unlocking _ failed, n | .closing _ failed, n | .releasing _ failed, n =>
    n = 1 ∨ failed = true ∧ n = 0
  | .finished returned, n =>
    n = 1 ∨ returned = false ∧ n = 0

/-- What a step of a call does, as far as the queue of its isolate is concerned. -/
inductive Turn (s : Process I) (c : Call I) : Process I → Call I → Prop
  | chained (calling : c.phase = .calling) :
      Turn s c (s.issue c.isolate) { c with ticket := s.issued c.isolate, phase := .queued }
  | goesOn {s' : Process I} {c' : Call I} (issued : s'.issued = s.issued) (completed : s'.completed = s.completed)
      (isolate : c'.isolate = c.isolate) (ticket : c'.ticket = c.ticket) (begun : c.phase ≠ .calling)
      (running : c'.phase.running = true) (turn : c.phase.running = true ∨ c.ticket = s.completed c.isolate) :
      Turn s c s' c'
  | completes {s' : Process I} {returned : Bool} (running : c.phase.running = true) (issued : s'.issued = s.issued)
      (completed : s'.completed = (s.complete c.isolate).completed) :
      Turn s c s' (c.enter (.finished returned))
  | stops : Turn s c (s.stop c.isolate) c

theorem turn_of_advance {s s' : Process I} {c c' : Call I} {out : Outcome}
    (h : s.advance c c.phase out = some (s', c')) : Turn s c s' c' := by
  obtain ⟨i, t, p, a⟩ := c
  cases out with
  | stops =>
    cases p <;> (cases h; exact .stops)
  | created modified =>
    cases p with
    | creating d l =>
      simp only [Process.advance] at h
      split_ifs at h
      cases h
      exact .goesOn rfl rfl rfl rfl nofun rfl (.inl rfl)
    | _ => cases h
  | throws =>
    cases p with
    | calling | queued | refused _ _ | fresh _ _ | delaying _ _ _ | unlocking _ _ | finished _ => cases h
    | releasing o f =>
      cases o with
      | none => cases h
      | some k =>
        cases h
        exact .completes rfl rfl rfl
    | closing o f =>
      cases h
      exact .completes rfl rfl rfl
    | acting o b n =>
      cases h
      cases b <;> exact .goesOn rfl rfl rfl rfl nofun rfl (.inl rfl)
    | creating _ _ | inspecting _ _ _ | deleting _ _ _ | opening _ | locking _ | abandoning _ =>
      cases h
      exact .goesOn rfl rfl rfl rfl nofun rfl (.inl rfl)
  | goes =>
    cases p with
    | creating _ _ | finished _ => cases h
    | calling =>
      cases h
      exact .chained rfl
    | queued =>
      simp only [Process.advance] at h
      split_ifs at h with hturn
      cases h
      exact .goesOn rfl rfl rfl rfl nofun rfl (.inr hturn.symm)
    | inspecting d l now =>
      simp only [Process.advance] at h
      cases hf : s.owner with
      | none =>
        rw [hf] at h
        cases h
        exact .goesOn rfl rfl rfl rfl nofun rfl (.inl rfl)
      | some file =>
        rw [hf] at h
        cases h
        refine .goesOn rfl rfl rfl rfl nofun ?_ (.inl rfl)
        show (if _ then Phase.deleting _ _ _ else Phase.fresh _ _).running = true
        split <;> rfl
    | fresh d l =>
      cases h
      refine .goesOn rfl rfl rfl rfl nofun ?_ (.inl rfl)
      show (if _ then Phase.opening _ else Phase.delaying _ _ _).running = true
      split <;> rfl
    | delaying d l w =>
      by_cases hw : w ≤ s.now
      · simp only [Process.advance, if_pos hw] at h
        cases h
        exact .goesOn rfl rfl rfl rfl nofun rfl (.inl rfl)
      · simp only [Process.advance, if_neg hw] at h
        cases h
    | acting o b n =>
      cases h
      cases b <;> exact .goesOn rfl rfl rfl rfl nofun rfl (.inl rfl)
    | refused _ _ | deleting _ _ _ | opening _ | locking _ | abandoning _ | unlocking _ _ | closing _ _ =>
      cases h
      exact .goesOn rfl rfl rfl rfl nofun rfl (.inl rfl)
    | releasing o f =>
      cases o with
      | none =>
        cases h
        exact .completes rfl rfl rfl
      | some k =>
        cases h
        exact .completes rfl rfl rfl

end Steps

/-- The place of a call in the queue of its isolate: its turn comes when the calls before it have completed. -/
structure Placed (s : Process I) (c : Call I) : Prop where
  issued : c.phase ≠ .calling → c.ticket < s.issued c.isolate
  waiting : c.phase = .queued → s.completed c.isolate ≤ c.ticket
  running : c.phase.running = true → c.ticket = s.completed c.isolate

def Apart (c d : Call I) : Prop :=
  c.phase ≠ .calling → d.phase ≠ .calling → c.isolate = d.isolate → c.ticket ≠ d.ticket

/-- The calls of each isolate go one after the other. -/
structure Queued (s : Process I) (ts : List (Call I)) : Prop where
  behind : ∀ i, s.completed i ≤ s.issued i
  placed : ∀ c ∈ ts, Placed s c
  apart : ts.Pairwise Apart

namespace Queued

variable {s s' : Process I} {c c' : Call I} {o ts ts' : List (Call I)}

theorem apart_symm {c d : Call I} (h : Apart c d) : Apart d c :=
  fun hd hc hi he => h hc hd hi.symm he.symm

theorem perm (hp : List.Perm ts ts') (h : Queued s ts) : Queued s ts' where
  behind := h.behind
  placed c hc := h.placed c (hp.mem_iff.2 hc)
  apart := hp.pairwise h.apart apart_symm

theorem spawn (i : I) (h : Queued s ts) : Queued s (withRefreshLock i :: ts) where
  behind := h.behind
  placed c hc := by
    rcases List.mem_cons.1 hc with rfl | hc
    · exact ⟨fun hne => absurd rfl hne, nofun, nofun⟩
    · exact h.placed c hc
  apart := List.pairwise_cons.2 ⟨fun _ _ hne => absurd rfl hne, h.apart⟩

theorem waits (h : Queued s (c :: o)) (hc : c.phase.running = true) {d : Call I} (hd : d ∈ o)
    (hi : d.isolate = c.isolate) : d.phase.running = false := by
  by_contra hr
  have hr : d.phase.running = true := Bool.of_not_eq_false hr
  have hcalling : ∀ {e : Call I}, e.phase.running = true → e.phase ≠ .calling := by
    intro e he hcall
    rw [hcall] at he
    cases he
  refine (List.pairwise_cons.1 h.apart).1 d hd (hcalling hc) (hcalling hr) hi.symm ?_
  have hdt := (h.placed d (List.mem_cons_of_mem c hd)).running hr
  rw [(h.placed c List.mem_cons_self).running hc, hdt, hi]

section Step

variable [DecidableEq I]

theorem exec {e : Reading} (h : Queued s (c :: o)) (he : s.exec c e = some (s', c')) : Queued s' (c' :: o) := by
  have hpass : Queued (s.pass e.elapsed) (c :: o) := ⟨h.behind, fun d hd => ⟨(h.placed d hd).issued,
    (h.placed d hd).waiting, (h.placed d hd).running⟩, h.apart⟩
  obtain ⟨hapart, hrest⟩ := List.pairwise_cons.1 h.apart
  have hc := hpass.placed c List.mem_cons_self
  cases turn_of_advance (exec_cases he).2 with
  | chained hcalling =>
    refine ⟨fun i => ?_, fun d hd => ?_, List.pairwise_cons.2 ⟨fun d hd _ hdc hi => ?_, hrest⟩⟩
    · show s.completed i ≤ Function.update s.issued c.isolate (s.issued c.isolate + 1) i
      by_cases hi : i = c.isolate
      · rw [hi, Function.update_self]
        exact Nat.le_succ_of_le (h.behind c.isolate)
      · rw [Function.update_of_ne hi]
        exact h.behind i
    · rcases List.mem_cons.1 hd with rfl | hd
      · refine ⟨fun _ => ?_, fun _ => h.behind c.isolate, nofun⟩
        show s.issued c.isolate < Function.update s.issued c.isolate (s.issued c.isolate + 1) c.isolate
        rw [Function.update_self]
        exact Nat.lt_succ_self _
      · have hd := hpass.placed d (List.mem_cons_of_mem c hd)
        refine ⟨fun hne => ?_, hd.waiting, hd.running⟩
        show d.ticket < Function.update s.issued c.isolate (s.issued c.isolate + 1) d.isolate
        by_cases hi : d.isolate = c.isolate
        · rw [hi, Function.update_self, ← hi]
          exact Nat.lt_succ_of_lt (hd.issued hne)
        · rw [Function.update_of_ne hi]
          exact hd.issued hne
    · have hlt := (h.placed d (List.mem_cons_of_mem c hd)).issued hdc
      rw [← hi] at hlt
      exact Nat.ne_of_gt hlt
  | goesOn hissued hcompleted hi ht hbegun hrun hturn =>
    refine ⟨fun i => ?_, fun d hd => ?_, List.pairwise_cons.2 ⟨fun d hd _ hdc hid => ?_, hrest⟩⟩
    · rw [hcompleted, hissued]
      exact h.behind i
    · rcases List.mem_cons.1 hd with rfl | hd
      · refine ⟨fun _ => ?_, fun hq => ?_, fun _ => ?_⟩
        · rw [hissued, hi, ht]
          exact hc.issued hbegun
        · rw [hq] at hrun
          cases hrun
        · rw [hcompleted, hi, ht]
          exact hturn.elim hc.running id
      · have hd := hpass.placed d (List.mem_cons_of_mem c hd)
        refine ⟨?_, ?_, ?_⟩
        · rw [hissued]
          exact hd.issued
        · rw [hcompleted]
          exact hd.waiting
        · rw [hcompleted]
          exact hd.running
    · rw [ht]
      exact hapart d hd hbegun hdc (hi ▸ hid)
  | completes hrun hissued hcompleted =>
    have hcall : c.phase ≠ .calling := fun hcall => by
      rw [hcall] at hrun
      cases hrun
    have hticket : c.ticket = s.completed c.isolate := hc.running hrun
    refine ⟨fun i => ?_, fun d hd => ?_, List.pairwise_cons.2 ⟨fun d hd _ hdc hid => ?_, hrest⟩⟩
    · rw [hcompleted, hissued]
      show Function.update s.completed c.isolate (s.completed c.isolate + 1) i ≤ s.issued i
      by_cases hi : i = c.isolate
      · have hlt : c.ticket < s.issued c.isolate := hc.issued hcall
        rw [hi, Function.update_self, ← hticket]
        exact hlt
      · rw [Function.update_of_ne hi]
        exact h.behind i
    · rcases List.mem_cons.1 hd with rfl | hd
      · refine ⟨fun _ => ?_, nofun, nofun⟩
        rw [hissued]
        exact hc.issued hcall
      · have hplaced := hpass.placed d (List.mem_cons_of_mem c hd)
        rcases eq_or_ne d.isolate c.isolate with hi | hi
        · have hwaits := h.waits hrun hd hi
          refine ⟨?_, fun hq => ?_, fun hr => ?_⟩
          · rw [hissued]
            exact hplaced.issued
          · have hle : s.completed d.isolate ≤ d.ticket := hplaced.waiting hq
            have hne : c.ticket ≠ d.ticket := hapart d hd hcall (fun hdc => by
              rw [hdc] at hq
              cases hq) hi.symm
            rw [hcompleted]
            show Function.update s.completed c.isolate (s.completed c.isolate + 1) d.isolate ≤ d.ticket
            rw [hi, Function.update_self]
            rw [hi] at hle
            omega
          · rw [hwaits] at hr
            cases hr
        · have hsame : (s.complete c.isolate).completed d.isolate = s.completed d.isolate :=
            Function.update_of_ne hi _ _
          refine ⟨?_, fun hq => ?_, fun hr => ?_⟩
          · rw [hissued]
            exact hplaced.issued
          · rw [hcompleted]
            show (s.complete c.isolate).completed d.isolate ≤ d.ticket
            rw [hsame]
            exact hplaced.waiting hq
          · rw [hcompleted]
            show d.ticket = (s.complete c.isolate).completed d.isolate
            rw [hsame]
            exact hplaced.running hr
    · exact hapart d hd hcall hdc hid
  | stops => exact ⟨h.behind, fun d hd => ⟨(hpass.placed d hd).issued, (hpass.placed d hd).waiting,
      (hpass.placed d hd).running⟩, h.apart⟩

end Step

end Queued

/-! ## The action -/

theorem Phase.Counts.le_one {p : Phase} {n : ℕ} (h : p.Counts n) : n ≤ 1 := by
  cases p <;> simp only [Phase.Counts] at h <;> omega

section Action

variable [DecidableEq I] {s s' : Process I} {c c' : Call I} {out : Outcome}

theorem counts_of_advance (hc : c.phase.Counts c.acted) (h : s.advance c c.phase out = some (s', c')) :
    c'.phase.Counts c'.acted := by
  obtain ⟨i, t, p, a⟩ := c
  cases out with
  | stops =>
    cases p <;> (cases h; exact hc)
  | created modified =>
    cases p with
    | creating d l =>
      simp only [Process.advance] at h
      split_ifs at h
      cases h
      exact hc
    | _ => cases h
  | throws =>
    cases p with
    | calling | queued | refused _ _ | fresh _ _ | delaying _ _ _ | unlocking _ _ | finished _ => cases h
    | creating _ _ | inspecting _ _ _ | deleting _ _ _ | locking _ =>
      cases h
      exact hc
    | opening o =>
      cases h
      exact congrArg Nat.succ hc
    | abandoning o =>
      cases h
      exact .inr ⟨rfl, hc⟩
    | acting o b n =>
      cases h
      cases b <;> exact .inl hc
    | closing o f =>
      cases h
      exact hc.imp id fun h => ⟨rfl, h.2⟩
    | releasing o f =>
      cases o with
      | none => cases h
      | some k =>
        cases h
        exact hc.imp id fun h => ⟨by rw [h.1]; rfl, h.2⟩
  | goes =>
    cases p with
    | creating _ _ | finished _ => cases h
    | calling | refused _ _ | deleting _ _ _ | opening _ | unlocking _ _ | closing _ _ =>
      cases h
      exact hc
    | queued | delaying _ _ _ =>
      simp only [Process.advance] at h
      split at h
      · cases h
        exact hc
      · cases h
    | inspecting d l now =>
      simp only [Process.advance] at h
      cases hf : s.owner with
      | none =>
        rw [hf] at h
        cases h
        exact hc
      | some file =>
        rw [hf] at h
        cases h
        show (if _ then Phase.deleting _ _ _ else Phase.fresh _ _).Counts a
        split <;> exact hc
    | fresh d l =>
      cases h
      show (if _ then Phase.opening _ else Phase.delaying _ _ _).Counts a
      split <;> exact hc
    | locking o | abandoning o =>
      cases h
      exact congrArg Nat.succ hc
    | acting o b n =>
      cases h
      cases b <;> exact .inl hc
    | releasing o f =>
      cases o with
      | none =>
        cases h
        exact hc.imp id fun h => ⟨by rw [h.1]; rfl, h.2⟩
      | some k =>
        cases h
        exact hc.imp id fun h => ⟨by rw [h.1]; rfl, h.2⟩

theorem owner_of_advance (hw : ∀ l ∈ c.phase.limit, s.now ≤ l)
    (hc : c.phase.inside = true → c.phase.owner.isSome = true) (h : s.advance c c.phase out = some (s', c')) :
    c'.phase.inside = true → c'.phase.owner.isSome = true := by
  obtain ⟨i, t, p, a⟩ := c
  cases out with
  | stops =>
    cases p <;> (cases h; exact hc)
  | created modified =>
    cases p with
    | creating d l =>
      simp only [Process.advance] at h
      split_ifs at h
      cases h
      exact fun _ => rfl
    | _ => cases h
  | throws =>
    cases p with
    | calling | queued | refused _ _ | fresh _ _ | delaying _ _ _ | unlocking _ _ | finished _ => cases h
    | creating _ _ | inspecting _ _ _ | deleting _ _ _ | locking _ | opening _ | abandoning _ =>
      cases h
      exact hc
    | acting o b n =>
      cases h
      cases b <;> exact hc
    | closing o f =>
      cases h
      exact nofun
    | releasing o f =>
      cases o with
      | none => cases h
      | some k =>
        cases h
        exact nofun
  | goes =>
    cases p with
    | creating _ _ | finished _ => cases h
    | calling | refused _ _ | deleting _ _ _ | opening _ | locking _ | abandoning _ | unlocking _ _ | closing _ _ =>
      cases h
      exact hc
    | queued | delaying _ _ _ =>
      simp only [Process.advance] at h
      split at h
      · cases h
        exact nofun
      · cases h
    | inspecting d l now =>
      simp only [Process.advance] at h
      cases hf : s.owner with
      | none =>
        rw [hf] at h
        cases h
        exact nofun
      | some file =>
        rw [hf] at h
        cases h
        show (if _ then Phase.deleting _ _ _ else Phase.fresh _ _).inside = true → _
        split <;> exact nofun
    | fresh d l =>
      have hle : ¬d < s.now := Nat.not_lt.2 (hw d rfl)
      simp only [Process.advance, if_neg hle] at h
      cases h
      exact nofun
    | acting o b n =>
      cases h
      cases b <;> exact hc
    | releasing o f =>
      cases o with
      | none =>
        cases h
        exact nofun
      | some k =>
        cases h
        exact nofun

end Action

/-! ## Runs -/

section Run

variable [DecidableEq I] {ls : List (Pool.Label I Reading)} {p : Pool (Process I) (Call I)}

theorem queued_run (hr : run step init ls = some p) : Queued p.shared p.threads := by
  have hinit : Queued (init : Pool (Process I) (Call I)).shared init.threads :=
    ⟨fun _ => Nat.le_of_eq rfl, List.forall_mem_nil _, .nil⟩
  exact Pool.run_invariant Queued (fun _ _ _ hp h => h.perm hp) (fun _ _ i h => h.spawn i)
    (fun _ _ _ _ _ _ h he => h.exec he) hinit hr

theorem counts_run (hr : run step init ls = some p) : ∀ c ∈ p.threads, c.phase.Counts c.acted := by
  have hexec : ∀ (s : Process I) c e o s' c', (∀ d ∈ c :: o, d.phase.Counts d.acted) → s.exec c e = some (s', c') →
      ∀ d ∈ c' :: o, d.phase.Counts d.acted := by
    intro s c e o s' c' h he
    obtain ⟨hc, ho⟩ := List.forall_mem_cons.1 h
    exact List.forall_mem_cons.2 ⟨counts_of_advance hc (exec_cases he).2, ho⟩
  refine Pool.run_invariant (fun _ ts => ∀ c ∈ ts, c.phase.Counts c.acted) ?_ ?_ hexec (List.forall_mem_nil _) hr
  · exact fun _ _ _ hp h c hc => h c (hp.mem_iff.2 hc)
  · exact fun _ _ _ h => List.forall_mem_cons.2 ⟨rfl, h⟩

theorem excludes_run (hm : Meets step (Pool.Moves Safe) init ls) (hr : run step init ls = some p) :
    Excludes p.shared p.threads := by
  have hinit : Excludes (init : Pool (Process I) (Call I)).shared init.threads := by
    refine ⟨fun f hf => ?_, List.forall_mem_nil _, .nil, List.forall_mem_nil _, List.forall_mem_nil _,
      List.forall_mem_nil _⟩
    cases hf
  have hexec : ∀ (s : Process I) c e o s' c', Excludes s (c :: o) → Safe s c e o → s.exec c e = some (s', c') →
      Excludes s' (c' :: o) := fun _ _ _ _ _ _ h hsafe he => h.exec hsafe he
  exact Pool.invariant Excludes (fun _ _ _ hp h => h.perm hp) (fun _ _ i h => h.spawn i) hexec hinit hm hr

/-- A call past `_acquireIsolateLock` has created the owner file. -/
def Owned (c : Call I) : Prop := c.phase.inside = true → c.owner.isSome = true

theorem owned_run (hm : Meets step (Pool.Moves Patient) init ls) (hr : run step init ls = some p) :
    ∀ c ∈ p.threads, Owned c := by
  have hexec : ∀ (s : Process I) c e o s' c', (∀ d ∈ c :: o, Owned d) → Patient s c e o → s.exec c e = some (s', c') →
      ∀ d ∈ c' :: o, Owned d := by
    intro s c e o s' c' h hp he
    obtain ⟨hc, ho⟩ := List.forall_mem_cons.1 h
    have hwaits : ∀ l ∈ c.phase.limit, (s.pass e.elapsed).now ≤ l := hp
    exact List.forall_mem_cons.2 ⟨owner_of_advance hwaits hc (exec_cases he).2, ho⟩
  refine Pool.invariant (fun _ ts => ∀ c ∈ ts, Owned c) ?_ ?_ hexec (List.forall_mem_nil _) hm hr
  · exact fun _ _ _ hp h c hc => h c (hp.mem_iff.2 hc)
  · intro s ts i h
    have hcalled : Owned (withRefreshLock i) := nofun
    exact List.forall_mem_cons.2 ⟨hcalled, h⟩

theorem inside_of_began {q : Phase} (h : q.began.isSome = true) : q.inside = true := by
  cases q with
  | acting o b n => rfl
  | _ => cases h

/-- **The refresh lock, over every run**: a call executes its action once at most, and exactly once if it returns; the
calls of an isolate go one after the other.  While every owner file is removed within 90 seconds, and none but the
judged one as stale, no two actions run at the same time with an owner file each; if no call gives up waiting, no two
actions ever do. -/
theorem withRefreshLock_run (hr : run step init ls = some p) :
    (∀ c ∈ p.threads, c.acted ≤ 1 ∧ (c.phase = .finished true → c.acted = 1)) ∧
      (p.threads.Pairwise fun c d => c.isolate = d.isolate → ¬(c.phase.running = true ∧ d.phase.running = true)) ∧
      (Meets step (Pool.Moves Safe) init ls →
        (p.threads.Pairwise fun c d => Acts p.shared c → Acts p.shared d → c.owner = none ∨ d.owner = none) ∧
        ∀ c ∈ p.threads, p.shared.alive c.isolate = true → InPlace p.shared c) ∧
      (Meets step (Pool.Moves Safe) init ls → Meets step (Pool.Moves Patient) init ls →
        p.threads.Pairwise fun c d => ¬(Acts p.shared c ∧ Acts p.shared d)) := by
  have hqueued := queued_run hr
  have hcounts := counts_run hr
  refine ⟨fun c hc => ⟨?_, fun hf => ?_⟩, ?_, fun hsafe => ⟨?_, fun c hc hs k hk => ?_⟩, fun hsafe hpatient => ?_⟩
  · exact (hcounts c hc).le_one
  · have hn := hcounts c hc
    rw [hf] at hn
    exact hn.resolve_right fun h => absurd h.1 nofun
  · refine hqueued.apart.imp_of_mem fun {c d} hc hd hapart hi hrun => ?_
    refine hapart (fun h => ?_) (fun h => ?_) hi ?_
    · rw [h] at hrun
      cases hrun.1
    · rw [h] at hrun
      cases hrun.2
    · rw [(hqueued.placed c hc).running hrun.1, (hqueued.placed d hd).running hrun.2, hi]
  · exact (excludes_run hsafe hr).pairwise.imp fun h hc hd => h hc.1 hd.1
  · obtain ⟨f, hf, hn, -⟩ := (excludes_run hsafe hr).inPlace c hc hs k hk
    exact ⟨f, hf, hn⟩
  · have howner := owned_run hpatient hr
    refine (excludes_run hsafe hr).pairwise.imp_of_mem fun {c d} hc hd hnone hacts => ?_
    have hsc := howner c hc (inside_of_began hacts.1.2)
    have hsd := howner d hd (inside_of_began hacts.2.2)
    rcases hnone hacts.1.1 hacts.2.1 with h | h
    · rw [h] at hsc
      cases hsc
    · rw [h] at hsd
      cases hsd

end Run

/-! ## Two isolates that wait, and three that do not exclude each other -/

section Examples

private def goes (i : ℕ) : Pool.Label ℕ Reading := .step i ⟨0, .goes⟩

private def later (i n : ℕ) : Pool.Label ℕ Reading := .step i ⟨n, .goes⟩

private def throws (i : ℕ) : Pool.Label ℕ Reading := .step i ⟨0, .throws⟩

private def creates (i modified : ℕ) : Pool.Label ℕ Reading := .step i ⟨0, .created modified⟩

def twoIsolates : List (Pool.Label ℕ Reading) :=
  [.start 0, goes 0, goes 0, creates 0 0, goes 0, goes 0,
    .start 1, goes 1, goes 1, throws 1, goes 1, goes 1, goes 1,
    later 0 30000, goes 0, goes 0, goes 0,
    goes 1, creates 1 30000, goes 1, goes 1, later 1 30000, goes 1, goes 1, goes 1]

/-- The two calls of the run have acted once each. -/
theorem withRefreshLock_twoIsolates : ∃ p, run step init twoIsolates = some p ∧
    (p.threads.map fun c => (c.phase, c.acted)) = [(.finished true, 1), (.finished true, 1)] ∧
    (∀ c ∈ p.threads, p.shared.alive c.isolate = true → InPlace p.shared c) ∧
    p.threads.Pairwise fun c d => ¬(Acts p.shared c ∧ Acts p.shared d) := by
  have hends : ∃ p, run step init twoIsolates = some p ∧
      (p.threads.map fun c => (c.phase, c.acted)) = [(.finished true, 1), (.finished true, 1)] :=
    exists_run _ _ _ (by decide)
  have hsafe : Meets step (Pool.Moves Safe) init twoIsolates := by decide
  have hpatient : Meets step (Pool.Moves Patient) init twoIsolates := by decide
  obtain ⟨p, hr, hp⟩ := hends
  have hrun := withRefreshLock_run hr
  exact ⟨p, hr, hp, (hrun.2.2.1 hsafe).2, hrun.2.2.2 hsafe hpatient⟩

/-- The second isolate's limit passes while the first one acts. -/
def givesUp : List (Pool.Label ℕ Reading) :=
  [.start 0, .start 1, goes 1, goes 1, goes 0, goes 0, creates 0 0, later 0 1, goes 0,
    throws 1, later 1 45000, goes 1, goes 1, goes 1, goes 1]

/-- The first isolate stops; the other two find its file stale, and the second removes the file of the first of them. -/
def staleTwice : List (Pool.Label ℕ Reading) :=
  [.start 0, goes 0, goes 0, creates 0 0, .step 0 ⟨0, .stops⟩,
    .start 1, .start 2, later 1 90001, goes 1, throws 1, goes 1, goes 1, goes 2, goes 2, throws 2, goes 2, goes 2,
    goes 1, creates 1 90001, goes 1, goes 1, goes 2, creates 2 90001, goes 2, goes 2]

def slowFile : List (Pool.Label ℕ Reading) :=
  [.start 0, goes 0, goes 0, creates 0 0,
    .start 1, later 1 90001, goes 1, throws 1, goes 1, goes 1, goes 1, creates 1 90001, goes 1, goes 1, goes 0, goes 0]

/-- **The lock alone does not exclude**, with no action longer than 45 seconds: a call that has waited so long acts
beside the holder; of two that find a dead owner's file stale, one removes the other's new file; and a slow holder is
taken for dead. -/
theorem withRefreshLock_beside :
    (∃ p, run step init givesUp = some p ∧ Meets step (Pool.Moves Brief) init givesUp ∧
      ¬p.threads.Pairwise fun c d => ¬(Acts p.shared c ∧ Acts p.shared d)) ∧
    (∃ p, run step init staleTwice = some p ∧ Meets step (Pool.Moves Brief) init staleTwice ∧
      (¬p.threads.Pairwise fun c d => ¬(Acts p.shared c ∧ Acts p.shared d)) ∧
      ¬∀ c ∈ p.threads, p.shared.alive c.isolate = true → InPlace p.shared c) ∧
    (∃ p, run step init slowFile = some p ∧ Meets step (Pool.Moves Brief) init slowFile ∧
      ¬p.threads.Pairwise fun c d => ¬(Acts p.shared c ∧ Acts p.shared d)) := by
  have hgives : ∃ p, run step init givesUp = some p ∧
      ¬p.threads.Pairwise fun c d => ¬(Acts p.shared c ∧ Acts p.shared d) := exists_run _ _ _ (by decide)
  have hstale : ∃ p, run step init staleTwice = some p ∧
      (¬p.threads.Pairwise fun c d => ¬(Acts p.shared c ∧ Acts p.shared d)) ∧
      ¬∀ c ∈ p.threads, p.shared.alive c.isolate = true → InPlace p.shared c := exists_run _ _ _ (by decide)
  have hslow : ∃ p, run step init slowFile = some p ∧
      ¬p.threads.Pairwise fun c d => ¬(Acts p.shared c ∧ Acts p.shared d) := exists_run _ _ _ (by decide)
  obtain ⟨p₁, hr₁, h₁⟩ := hgives
  obtain ⟨p₂, hr₂, h₂⟩ := hstale
  obtain ⟨p₃, hr₃, h₃⟩ := hslow
  exact ⟨⟨p₁, hr₁, by decide, h₁⟩, ⟨p₂, hr₂, by decide, h₂⟩, ⟨p₃, hr₃, by decide, h₃⟩⟩

end Examples

end RefreshLock
end SecureChat
