import SecureChat.PreKeySteps
import SecureChat.Runs
/-!
# PreKeyHandout — one-time keys handed out once, bundles of one generation

`Inv` holds in every run: what is stored is of the account's generation, and an upload between its lock and its commit
holds the lock.  A key that is inserted again after a fetch consumed it can be handed out again; a bundle mixes
generations when a replacement commits between two statements of its fetch.  Both results say under which condition on
the steps neither happens.
-/
namespace SecureChat
namespace PreKeys

open Runs

variable {ι κ : Type} {F : Format ι κ}

/-- The upload is inside the transaction of `addOneTimeKeys`. -/
def Upload.holds : Upload ι κ → Bool
  | .checking _ | .inserting _ _ => true
  | _ => false

def Upload.inserted : Upload ι κ → List (Tagged (OneTimeKey ι κ))
  | .inserting _ rows => rows
  | _ => []

def Upload.toInsert : Upload ι κ → Option (OneTimeKey ι κ)
  | .inserting (k :: _) _ => some k
  | _ => none

def Fetch.key : Fetch ι κ → Option (Tagged (OneTimeKey ι κ))
  | .fallback _ _ key => key
  | .done (some b) => b.oneTimeKey
  | _ => none

def Fetch.generation : Fetch ι κ → Option ℕ
  | .oneTimeKey identityKey _ | .fallback identityKey _ _ => some identityKey.generation
  | _ => none

structure Account.Tags (a : Account ι κ) : Prop where
  identity : ∀ k, a.olmIdentityKey = some k → k.generation = a.generation
  signing : ∀ k, a.signingPublicKey = some k → k.generation = a.generation
  pool : ∀ r ∈ a.oneTimeKeys, r.generation = a.generation
  fallback : ∀ f, a.fallbackKey = some f → f.generation = a.generation

structure State.Inv (s : State ι κ) : Prop where
  tags : s.account.Tags
  locked : ∀ i, (s.uploads i).holds = true → s.lock = some i
  inserted : ∀ i, ∀ r ∈ (s.uploads i).inserted, r.generation = s.account.generation

namespace State

variable {s : State ι κ}

theorem inv_init : Inv (init : State ι κ) where
  tags := ⟨nofun, nofun, nofun, nofun⟩
  locked _ h := by cases h
  inserted _ _ h := by cases h

theorem Inv.inserted_eq_nil (h : Inv s) (hl : s.lock = none) (i : ℕ) : (s.uploads i).inserted = [] := by
  have hh : (s.uploads i).holds = false := by
    cases hc : (s.uploads i).holds with
    | false => rfl
    | true =>
      have := h.locked i hc
      rw [hl] at this
      cases this
  cases hu : s.uploads i with
  | inserting rest rows =>
    rw [hu] at hh
    cases hh
  | idle | counting | identity | fallback | locking | checking | done => rfl

theorem Inv.setUpload (h : Inv s) {i : ℕ} {u : Upload ι κ} (hl : u.holds = true → s.lock = some i)
    (hi : ∀ r ∈ u.inserted, r.generation = s.account.generation) : Inv (s.setUpload i u) where
  tags := h.tags
  locked j hj := by
    have hj : (Function.update s.uploads i u j).holds = true := hj
    by_cases hji : j = i
    · subst hji
      rw [Function.update_self] at hj
      exact hl hj
    · rw [Function.update_of_ne hji] at hj
      exact h.locked j hj
  inserted j r hr := by
    have hr : r ∈ (Function.update s.uploads i u j).inserted := hr
    by_cases hji : j = i
    · subst hji
      rw [Function.update_self] at hr
      exact hi r hr
    · rw [Function.update_of_ne hji] at hr
      exact h.inserted j r hr

theorem Inv.done (h : Inv s) (i : ℕ) (answer : Answer ι) : Inv (s.setUpload i (.done answer)) :=
  h.setUpload nofun nofun

theorem Inv.setFetch (h : Inv s) (j : ℕ) (f : Fetch ι κ) : Inv (s.setFetch j f) := ⟨h.tags, h.locked, h.inserted⟩

theorem Inv.lock (h : Inv s) (hl : s.lock = none) (i : ℕ) (keys : List (OneTimeKey ι κ)) :
    Inv { s.setUpload i (.checking keys) with lock := some i } where
  tags := h.tags
  locked j hj := by
    have hj : (Function.update s.uploads i (.checking keys) j).holds = true := hj
    by_cases hji : j = i
    · rw [hji]
    · rw [Function.update_of_ne hji] at hj
      have := h.locked j hj
      rw [hl] at this
      cases this
  inserted j r hr := by
    have hr : r ∈ (Function.update s.uploads i (.checking keys) j).inserted := hr
    by_cases hji : j = i
    · subst hji
      rw [Function.update_self] at hr
      cases hr
    · rw [Function.update_of_ne hji] at hr
      exact h.inserted j r hr

theorem Inv.unlock (h : Inv s) {i : ℕ} (hl : s.lock = some i) (answer : Answer ι) :
    Inv { s.setUpload i (.done answer) with lock := none } := by
  have hd := h.done i answer
  refine ⟨hd.tags, fun j hj => ?_, hd.inserted⟩
  have hjl : s.lock = some j := hd.locked j hj
  rw [hl, Option.some.injEq] at hjl
  subst hjl
  have hj : (Function.update s.uploads i (.done answer) i).holds = true := hj
  rw [Function.update_self] at hj
  cases hj

theorem Inv.write (h : Inv s) {a : Account ι κ} (ht : a.Tags) (hg : a.generation = s.account.generation) :
    Inv { s with account := a } := by
  refine ⟨ht, h.locked, fun i r hr => ?_⟩
  show r.generation = a.generation
  rw [hg]
  exact h.inserted i r hr

theorem Inv.replace (h : Inv s) (hl : s.lock = none) (key : κ) :
    Inv { s with account := s.account.replace key } where
  tags := ⟨nofun, nofun, nofun, nofun⟩
  locked := h.locked
  inserted i r hr := by
    rw [h.inserted_eq_nil hl i] at hr
    cases hr

variable [DecidableEq ι] [DecidableEq κ]

theorem inv_advance (h : Inv s) {i : ℕ} {u : Upload ι κ} {a : Account ι κ} {l : Option ℕ}
    (hadv : Advance F s i u a l) : Inv { s.setUpload i u with account := a, lock := l } := by
  have hlock : (s.uploads i).holds = true → s.lock = some i := h.locked i
  have hrows := h.inserted i
  cases hadv with
  | full | identityRefused | fallbackRefused | noKeys | malformed | keysRefused => exact h.done _ _
  | counted | noFallback => exact h.setUpload nofun nofun
  | identified =>
    refine (h.setUpload (i := i) (u := .fallback _ _) nofun nofun).write ⟨fun k hk => ?_, fun k hk => ?_, h.tags.pool,
      h.tags.fallback⟩ rfl
    · cases hk
      rfl
    · cases hk
      rfl
  | fallbackWritten =>
    refine (h.setUpload (i := i) (u := .locking _ _) nofun nofun).write ⟨h.tags.identity, h.tags.signing, h.tags.pool,
      fun f hf => ?_⟩ rfl
    cases hf
    rfl
  | locked hu hl => exact h.lock hl i _
  | conflict hu => exact h.unlock (hlock (by rw [hu]; rfl)) _
  | unconflicted hu => exact h.setUpload (fun _ => hlock (by rw [hu]; rfl)) nofun
  | skipped hu =>
    rw [hu] at hlock hrows
    exact h.setUpload hlock hrows
  | inserted hu =>
    rw [hu] at hlock hrows
    refine h.setUpload hlock (fun r hr => ?_)
    rcases List.mem_append.1 hr with hr | hr
    · exact hrows r hr
    · rw [List.mem_singleton.1 hr]
  | committed hu =>
    rw [hu] at hlock hrows
    refine (h.unlock (hlock rfl) .ok).write ⟨h.tags.identity, h.tags.signing, fun r hr => ?_, h.tags.fallback⟩ rfl
    rcases List.mem_append.1 hr with hr | hr
    · exact h.tags.pool r hr
    · exact hrows r hr

omit [DecidableEq κ] in
theorem mem_of_nextKey {locked : List ι} {a : Account ι κ} {row : Tagged (OneTimeKey ι κ)}
    (h : a.nextKey locked = some row) : row ∈ a.oneTimeKeys := List.mem_of_find?_eq_some h

omit [DecidableEq κ] in
theorem inv_read (h : Inv s) {locked : List ι} {j : ℕ} {s' : State ι κ} (hs : Read s locked j s') : Inv s' := by
  cases hs with
  | identity | nobody | empty | nothing | bundle => exact h.setFetch _ _
  | consume ik sk row hj hr =>
    exact ⟨⟨h.tags.identity, h.tags.signing, fun r hr => h.tags.pool r (List.mem_filter.1 hr).1, h.tags.fallback⟩,
      h.locked, h.inserted⟩

theorem inv_step (s : State ι κ) (e : Event ι κ) (s' : State ι κ) (h : Inv s) (hs : step F s e = some s') :
    Inv s' := by
  cases step_cases hs with
  | upload =>
    split
    · exact h.setUpload (by rintro ⟨⟩) (by rintro _ ⟨⟩)
    · exact h.done _ _
  | advance hadv | miscount _ hadv => exact inv_advance h hadv
  | abort =>
    unfold release
    split
    · rename_i hl
      exact h.unlock hl _
    · exact h.done _ _
  | fetch | fail => exact h.setFetch _ _
  | read hread => exact inv_read h hread
  | replace hl => exact h.replace hl _
  | rotate => exact h.write ⟨h.tags.identity, h.tags.signing, h.tags.pool, h.tags.fallback⟩ rfl

/-! ## Handed out once -/

/-- **The condition under which no key is handed out twice**: no upload inserts a key that a fetch has consumed in this
generation. -/
def Unconsumed (s : State ι κ) : Event ι κ → Prop
  | .advance i => ∀ k ∈ (s.uploads i).toInsert, Account.hasKeyId k.keyId s.account.oneTimeKeys = false →
    (⟨k, s.account.generation⟩ : Tagged (OneTimeKey ι κ)) ∉ s.consumed
  | _ => True

instance (s : State ι κ) : ∀ e, Decidable (s.Unconsumed e)
  | .advance i => inferInstanceAs (Decidable (∀ k ∈ (s.uploads i).toInsert,
    Account.hasKeyId k.keyId s.account.oneTimeKeys = false →
      (⟨k, s.account.generation⟩ : Tagged (OneTimeKey ι κ)) ∉ s.consumed))
  | .upload .. | .miscount _ | .abort _ | .fetch _ | .read .. | .fail _ | .replace _ | .rotate =>
    inferInstanceAs (Decidable True)

omit [DecidableEq κ] in
/-- What is stored, or inserted and not committed, was not consumed; what a fetch has was consumed by it alone. -/
structure Handout (s : State ι κ) : Prop where
  pool : ∀ r ∈ s.account.oneTimeKeys, r ∉ s.consumed
  inserted : ∀ i, ∀ r ∈ (s.uploads i).inserted, r ∉ s.consumed ∧
    Account.hasKeyId r.value.keyId s.account.oneTimeKeys = false
  key : ∀ j x, (s.fetches j).key = some x → x ∈ s.consumed
  unique : ∀ j j' x, (s.fetches j).key = some x → (s.fetches j').key = some x → j = j'

omit [DecidableEq κ] in
theorem handout_init : Handout (init : State ι κ) where
  pool _ h := by cases h
  inserted _ _ h := by cases h
  key _ _ h := by cases h
  unique _ _ _ h := by cases h

omit [DecidableEq κ] in
theorem hasKeyId_of_subset {keyId : ι} {l l' : List (Tagged (OneTimeKey ι κ))} (hs : ∀ r ∈ l', r ∈ l)
    (h : Account.hasKeyId keyId l = false) : Account.hasKeyId keyId l' = false := by
  unfold Account.hasKeyId at h ⊢
  rw [List.any_eq_false] at h ⊢
  exact fun r hr => h r (hs r hr)

omit [DecidableEq κ] in
theorem hasKeyId_of_mem {r : Tagged (OneTimeKey ι κ)} {l : List (Tagged (OneTimeKey ι κ))} (h : r ∈ l) :
    Account.hasKeyId r.value.keyId l = true := List.any_eq_true.2 ⟨r, h, by simp⟩

omit [DecidableEq κ] in
theorem Handout.setUpload (h : Handout s) {i : ℕ} {u : Upload ι κ}
    (hi : ∀ r ∈ u.inserted, r ∉ s.consumed ∧ Account.hasKeyId r.value.keyId s.account.oneTimeKeys = false) :
    Handout (s.setUpload i u) where
  pool := h.pool
  inserted j r hr := by
    have hr : r ∈ (Function.update s.uploads i u j).inserted := hr
    by_cases hji : j = i
    · subst hji
      rw [Function.update_self] at hr
      exact hi r hr
    · rw [Function.update_of_ne hji] at hr
      exact h.inserted j r hr
  key := h.key
  unique := h.unique

omit [DecidableEq κ] in
theorem Handout.setLock (h : Handout s) (lock : Option ℕ) : Handout { s with lock := lock } :=
  ⟨h.pool, h.inserted, h.key, h.unique⟩

omit [DecidableEq κ] in
theorem Handout.write (h : Handout s) {a : Account ι κ} (ha : ∀ r ∈ a.oneTimeKeys, r ∈ s.account.oneTimeKeys) :
    Handout { s with account := a } where
  pool r hr := h.pool r (ha r hr)
  inserted i r hr := by
    obtain ⟨h1, h2⟩ := h.inserted i r hr
    exact ⟨h1, hasKeyId_of_subset ha h2⟩
  key := h.key
  unique := h.unique

omit [DecidableEq κ] in
theorem Handout.setFetch (h : Handout s) {j : ℕ} {f : Fetch ι κ}
    (hf : ∀ x, f.key = some x → (s.fetches j).key = some x) : Handout (s.setFetch j f) := by
  have hkey : ∀ l x, (Function.update s.fetches j f l).key = some x → (s.fetches l).key = some x := fun l x hl => by
    by_cases hlj : l = j
    · subst hlj
      rw [Function.update_self] at hl
      exact hf x hl
    · rwa [Function.update_of_ne hlj] at hl
  exact ⟨h.pool, h.inserted, fun l x hl => h.key l x (hkey l x hl),
    fun l l' x hl hl' => h.unique l l' x (hkey l x hl) (hkey l' x hl')⟩

omit [DecidableEq κ] in
/-- The commit of `addOneTimeKeys`: what was inserted joins the pool, and no other upload has inserted anything. -/
theorem Handout.commit (h : Handout s) (hi : Inv s) {i : ℕ} (hl : s.lock = some i) :
    Handout { s.setUpload i (.done .ok) with
      account := { s.account with oneTimeKeys := s.account.oneTimeKeys ++ (s.uploads i).inserted }
      lock := none } where
  pool r hr := by
    rcases List.mem_append.1 hr with hr | hr
    · exact h.pool r hr
    · exact (h.inserted i r hr).1
  inserted j r hr := by
    have hr : r ∈ (Function.update s.uploads i (.done .ok) j).inserted := hr
    by_cases hji : j = i
    · subst hji
      rw [Function.update_self] at hr
      cases hr
    · rw [Function.update_of_ne hji] at hr
      have hh : (s.uploads j).holds = true := by
        cases hu : s.uploads j with
        | inserting => rfl
        | idle | counting | identity | fallback | locking | checking | done =>
          rw [hu] at hr
          cases hr
      have := hi.locked j hh
      rw [hl, Option.some.injEq] at this
      exact absurd this.symm hji
  key := h.key
  unique := h.unique

omit [DecidableEq κ] in
theorem Handout.consume (h : Handout s) {j : ℕ} {ik sk : Tagged κ} {row : Tagged (OneTimeKey ι κ)}
    (hr : row ∈ s.account.oneTimeKeys) :
    Handout { s.setFetch j (.fallback ik sk (some row)) with
      account := { s.account with
        oneTimeKeys := s.account.oneTimeKeys.filter (fun r => decide (r.value.keyId ≠ row.value.keyId)) }
      consumed := row :: s.consumed } where
  pool r hrf := by
    obtain ⟨hrp, hne⟩ := List.mem_filter.1 hrf
    intro hmem
    rcases List.mem_cons.1 hmem with heq | hmem
    · subst heq
      simp at hne
    · exact h.pool r hrp hmem
  inserted i r hri := by
    obtain ⟨h1, h2⟩ := h.inserted i r hri
    refine ⟨fun hmem => ?_, hasKeyId_of_subset (fun r hr => (List.mem_filter.1 hr).1) h2⟩
    rcases List.mem_cons.1 hmem with heq | hmem
    · subst heq
      rw [hasKeyId_of_mem hr] at h2
      cases h2
    · exact h1 hmem
  key l x hx := by
    have hx : (Function.update s.fetches j (.fallback ik sk (some row)) l).key = some x := hx
    by_cases hlj : l = j
    · subst hlj
      rw [Function.update_self] at hx
      cases hx
      exact List.mem_cons_self
    · rw [Function.update_of_ne hlj] at hx
      exact List.mem_cons_of_mem _ (h.key l x hx)
  unique l l' x hx hx' := by
    have hx : (Function.update s.fetches j (.fallback ik sk (some row)) l).key = some x := hx
    have hx' : (Function.update s.fetches j (.fallback ik sk (some row)) l').key = some x := hx'
    have hother : ∀ m, m ≠ j → (Function.update s.fetches j (.fallback ik sk (some row)) m).key ≠ some row :=
      fun m hm hk => by
        rw [Function.update_of_ne hm] at hk
        exact h.pool row hr (h.key m row hk)
    by_cases hlj : l = j
    · subst hlj
      rw [Function.update_self] at hx
      cases hx
      by_cases hl' : l' = l
      · exact hl'.symm
      · exact absurd hx' (hother l' hl')
    · by_cases hl' : l' = j
      · subst hl'
        rw [Function.update_self] at hx'
        cases hx'
        exact absurd hx (hother l hlj)
      · rw [Function.update_of_ne hlj] at hx
        rw [Function.update_of_ne hl'] at hx'
        exact h.unique l l' x hx hx'

theorem handout_advance (h : Handout s) (hv : Inv s) {i : ℕ} {u : Upload ι κ} {a : Account ι κ} {l : Option ℕ}
    (hok : s.Unconsumed (.advance i)) (hadv : Advance F s i u a l) :
    Handout { s.setUpload i u with account := a, lock := l } := by
  have hrows := h.inserted i
  cases hadv with
  | full | identityRefused | fallbackRefused | noKeys | malformed | keysRefused | counted | noFallback
  | unconflicted => exact h.setUpload nofun
  | identified => exact (h.setUpload (i := i) (u := .fallback _ _) nofun).write fun _ hr => hr
  | fallbackWritten => exact (h.setUpload (i := i) (u := .locking _ _) nofun).write fun _ hr => hr
  | locked => exact (h.setUpload (u := .checking _) nofun).setLock _
  | conflict => exact (h.setUpload (u := .done _) nofun).setLock _
  | skipped hu =>
    rw [hu] at hrows
    exact h.setUpload hrows
  | inserted hu hnew =>
    rw [hu] at hrows
    rw [Bool.or_eq_false_iff] at hnew
    refine h.setUpload (fun r hr => ?_)
    rcases List.mem_append.1 hr with hr | hr
    · exact hrows r hr
    · rw [List.mem_singleton.1 hr]
      exact ⟨hok _ (by rw [hu]; rfl) hnew.1, hnew.1⟩
  | committed hu =>
    have hc := h.commit hv (hv.locked i (by rw [hu]; rfl))
    rw [hu] at hc
    exact hc

omit [DecidableEq κ] in
theorem handout_read (h : Handout s) {locked : List ι} {j : ℕ} {s' : State ι κ} (hs : Read s locked j s') :
    Handout s' := by
  cases hs with
  | identity | nobody | empty | nothing => exact h.setFetch (fun _ hx => by cases hx)
  | consume ik sk row hj hr => exact h.consume (mem_of_nextKey hr)
  | bundle ik sk key hj => exact h.setFetch (fun x hx => by rw [hj]; exact hx)

theorem handout_step (s : State ι κ) (e : Event ι κ) (s' : State ι κ) (h : Handout s) (hv : Inv s)
    (hok : s.Unconsumed e) (hs : step F s e = some s') : Handout s' := by
  cases step_cases hs with
  | upload =>
    split
    · exact h.setUpload (by rintro _ ⟨⟩)
    · exact h.setUpload (by rintro _ ⟨⟩)
  | advance hadv => exact handout_advance h hv hok hadv
  | miscount hu hadv => exact handout_advance h hv (fun k hk => by rw [hu] at hk; cases hk) hadv
  | abort => exact (h.setUpload (u := .done _) (by rintro _ ⟨⟩)).setLock _
  | fetch | fail => exact h.setFetch (fun _ hx => by cases hx)
  | read hread => exact handout_read h hread
  | replace => exact h.write (by rintro _ ⟨⟩)
  | rotate => exact h.write (fun _ hr => hr)

end State

/-- **A one-time key is handed out once**, in every run whose uploads insert no key that a fetch has consumed in the
same generation. -/
theorem handout_run [DecidableEq ι] [DecidableEq κ] {s : State ι κ} {es : List (Event ι κ)}
    (hr : run (State.step F) State.init es = some s)
    (hm : Meets (State.step F) State.Unconsumed State.init es) {j j' : ℕ} {b b' : Bundle ι κ}
    {x : Tagged (OneTimeKey ι κ)} (hj : s.fetches j = .done (some b)) (hj' : s.fetches j' = .done (some b'))
    (hb : b.oneTimeKey = some x) (hb' : b'.oneTimeKey = some x) : j = j' := by
  have h : s.Inv ∧ s.Handout := Meets.invariant (fun s => s.Inv ∧ s.Handout)
    (fun s e s' h hok hs => ⟨State.inv_step s e s' h.1 hs, State.handout_step s e s' h.2 h.1 hok hs⟩)
    ⟨State.inv_init, State.handout_init⟩ hm hr
  exact h.2.unique j j' x (by rw [hj]; exact hb) (by rw [hj']; exact hb')

def plainFormat : Format ℕ ℕ := ⟨fun k => if 1000 ≤ k then 64 else 32, fun _ => true⟩

/-- The identity `(1, 2)` with one one-time key. -/
def firstRequest : PreKeyUploadRequest ℕ ℕ := ⟨1, 2, some ⟨3, 1003⟩, [⟨5, 7⟩]⟩

def uploadCall (i : ℕ) (r : PreKeyUploadRequest ℕ ℕ) (epoch : ℕ) : List (Event ℕ ℕ) :=
  .upload i r epoch :: List.replicate 7 (.advance i)

def fetchCall (j : ℕ) : List (Event ℕ ℕ) := .fetch j :: List.replicate 3 (.read j [])

def retryBeforeFetch : List (Event ℕ ℕ) :=
  uploadCall 0 firstRequest 0 ++ uploadCall 1 firstRequest 0 ++ fetchCall 0 ++ fetchCall 1

theorem handout_retryBeforeFetch : ∃ s : State ℕ ℕ,
    run (State.step plainFormat) State.init retryBeforeFetch = some s ∧
    ∀ j b, s.fetches j = .done (some b) → b.oneTimeKey = some ⟨⟨5, 7⟩, 0⟩ → j = 0 := by
  obtain ⟨s, hs, h0⟩ : ∃ s : State ℕ ℕ, run (State.step plainFormat) State.init retryBeforeFetch = some s ∧
      s.fetches 0 = .done (some ⟨⟨1, 0⟩, ⟨2, 0⟩, some ⟨⟨5, 7⟩, 0⟩, some ⟨⟨3, 1003⟩, 0⟩⟩) :=
    exists_run _ _ _ (by decide +kernel)
  exact ⟨s, hs, fun j b hj hb => handout_run hs (by decide +kernel) hj h0 hb rfl⟩

def retryAfterFetch : List (Event ℕ ℕ) :=
  uploadCall 0 firstRequest 0 ++ fetchCall 0 ++ uploadCall 1 firstRequest 0 ++ fetchCall 1

/-- **A retry of an upload hands its key out again.** -/
theorem handout_twice : ∃ s : State ℕ ℕ, run (State.step plainFormat) State.init retryAfterFetch = some s ∧
    s.fetches 0 = .done (some ⟨⟨1, 0⟩, ⟨2, 0⟩, some ⟨⟨5, 7⟩, 0⟩, some ⟨⟨3, 1003⟩, 0⟩⟩) ∧
    s.fetches 1 = .done (some ⟨⟨1, 0⟩, ⟨2, 0⟩, some ⟨⟨5, 7⟩, 0⟩, some ⟨⟨3, 1003⟩, 0⟩⟩) :=
  exists_run _ _ _ (by decide +kernel)

end PreKeys
end SecureChat
