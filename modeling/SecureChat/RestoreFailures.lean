import SecureChat.BackupRestore
/-!
# RestoreFailures — what a restore that fails has changed

A restore that fails before its tables are replaced has changed nothing, but one that fails afterwards leaves them as
they are.  `failures_run` says that this is all.
-/
namespace SecureChat
namespace Backup

open Async
open Program (get modify whenever HoldsBeside)

variable {T : Type}

/-- The data are as they would be without any one of the restores that have ended without success. -/
def Device.Untouched (initial : Data T) (d : Device T) : Prop :=
  ∀ r ∈ d.failed, d.data = replay initial (d.log.filter fun c => decide (c.restore ≠ some r))

/-- The condition on the end of a step.  Once the tables are replaced no step of the restore fails, and the session is
still the one of the account that it has begun with. -/
def unhindered (w : Wait) (answer : Option Unit) (d : Device T) : Bool :=
  match w, answer with
  | .resumed _ account, some _ => account.accepts d.data.session
  | .putOwner _, none | .persist _, none | .deleteAttempts _, none => false
  | _, _ => true

/-! ## The invariant -/

def Wait.restore : Wait → ℕ
  | .preparing r _ | .resumed r _ | .putOwner r | .profileRestored r | .persist r | .deleteAttempts r => r

def Wait.replaced : Wait → Bool
  | .preparing _ _ => false
  | _ => true

def Device.Spared (d : Device T) (r : ℕ) : Prop := ∀ c ∈ d.log, c.restore ≠ some r

/-- A restore that has begun, has not failed and has changed something only if it has replaced the tables. -/
structure Device.Underway (d : Device T) (r : ℕ) (replaced : Bool) : Prop where
  lt : r < d.restores
  unfailed : r ∉ d.failed
  spared : replaced = false → d.Spared r

/-- What holds of the data, of the history and of the restores that wait. -/
structure Kept (initial : Data T) (d : Device T) (o : List Wait) : Prop where
  data : d.data = replay initial d.log
  failed : ∀ r ∈ d.failed, r < d.restores ∧ d.Spared r
  begun : ∀ c ∈ d.log, ∀ r, c.restore = some r → r < d.restores
  apart : (o.map Wait.restore).Nodup
  fits : ∀ w ∈ o, d.Underway w.restore w.replaced

structure Turn (initial : Data T) (r : ℕ) (replaced : Bool) (d : Device T) (o : List Wait) : Prop where
  kept : Kept initial d o
  underway : d.Underway r replaced
  alone : r ∉ o.map Wait.restore

abbrev rules (initial : Data T) : Tasks.Rules Unit Wait (Device T) (Event T) :=
  ⟨Kept initial, fun _ _ _ => True, fun w answer d _ => unhindered w answer d = true⟩

section Kept

variable {initial : Data T} {d : Device T} {o o' : List Wait} {r : ℕ} {replaced : Bool} {f : Data T → Data T}

theorem Kept.untouched (h : Kept initial d o) : d.Untouched initial := by
  intro r hr
  have hlog : (d.log.filter fun c => decide (c.restore ≠ some r)) = d.log :=
    List.filter_eq_self.2 fun c hc => decide_eq_true ((h.failed r hr).2 c hc)
  rw [hlog]
  exact h.data

theorem Kept.perm (hp : o.Perm o') (h : Kept initial d o) : Kept initial d o' where
  data := h.data
  failed := h.failed
  begun := h.begun
  apart := (hp.map Wait.restore).nodup_iff.1 h.apart
  fits w hw := h.fits w (hp.mem_iff.2 hw)

theorem turn_iff {w : Wait} : Turn initial w.restore w.replaced d o ↔ Kept initial d (w :: o) := by
  constructor
  · intro h
    refine ⟨h.kept.data, h.kept.failed, h.kept.begun, List.nodup_cons.2 ⟨h.alone, h.kept.apart⟩, fun v hv => ?_⟩
    rcases List.mem_cons.1 hv with rfl | hv
    · exact h.underway
    · exact h.kept.fits v hv
  · intro h
    obtain ⟨halone, hapart⟩ := List.nodup_cons.1 h.apart
    exact ⟨⟨h.data, h.failed, h.begun, hapart, fun v hv => h.fits v (List.mem_cons_of_mem w hv)⟩,
      h.fits w List.mem_cons_self, halone⟩

theorem replay_append (data : Data T) (changes : List (Change T)) (c : Change T) :
    replay data (changes ++ [c]) = c.apply (replay data changes) := List.foldl_concat ..

theorem Device.Spared.change {restore : Option ℕ} (h : d.Spared r) (hr : restore ≠ some r) :
    (d.change restore f).Spared r := by
  intro c hc
  rcases List.mem_append.1 hc with hold | hnew
  · exact h c hold
  · rw [List.mem_singleton.1 hnew]
    exact hr

theorem Kept.change {restore : Option ℕ} (h : Kept initial d o) (hr : ∀ r, restore = some r →
    r < d.restores ∧ r ∉ d.failed ∧ r ∉ o.map Wait.restore) : Kept initial (d.change restore f) o where
  data := by
    rw [Device.change, replay_append, ← h.data]
  failed r hfailed := by
    refine ⟨(h.failed r hfailed).1, (h.failed r hfailed).2.change ?_⟩
    rintro rfl
    exact (hr r rfl).2.1 hfailed
  begun c hc r hrestore := by
    rcases List.mem_append.1 hc with hold | hnew
    · exact h.begun c hold r hrestore
    · rw [List.mem_singleton.1 hnew] at hrestore
      exact (hr r hrestore).1
  apart := h.apart
  fits w hw := by
    refine ⟨(h.fits w hw).lt, (h.fits w hw).unfailed, fun hopen => ((h.fits w hw).spared hopen).change ?_⟩
    rintro rfl
    exact (hr w.restore rfl).2.2 (List.mem_map_of_mem hw)

theorem Kept.setAttempts {attempts : GroupControl.Text → Option GroupControl.Text} (h : Kept initial d o) :
    Kept initial (d.setAttempts attempts) o :=
  ⟨h.data, h.failed, h.begun, h.apart, fun w hw => ⟨(h.fits w hw).lt, (h.fits w hw).unfailed, (h.fits w hw).spared⟩⟩

theorem Turn.setAttempts {attempts : GroupControl.Text → Option GroupControl.Text}
    (h : Turn initial r replaced d o) : Turn initial r replaced (d.setAttempts attempts) o :=
  ⟨h.kept.setAttempts, ⟨h.underway.lt, h.underway.unfailed, h.underway.spared⟩, h.alone⟩

theorem Turn.change (h : Turn initial r replaced d o) : Turn initial r true (d.change (some r) f) o where
  kept := by
    refine h.kept.change fun r' hr' => ?_
    cases hr'
    exact ⟨h.underway.lt, h.underway.unfailed, h.alone⟩
  underway := ⟨h.underway.lt, h.underway.unfailed, fun hreplaced => by cases hreplaced⟩
  alone := h.alone

theorem Kept.begin (h : Kept initial d o) : Turn initial d.restores false d.begin o where
  kept := by
    refine ⟨h.data, fun r hr => ⟨(h.failed r hr).1.trans (Nat.lt_succ_self _), (h.failed r hr).2⟩,
      fun c hc r hr => (h.begun c hc r hr).trans (Nat.lt_succ_self _), h.apart, fun w hw => ?_⟩
    exact ⟨(h.fits w hw).lt.trans (Nat.lt_succ_self _), (h.fits w hw).unfailed, (h.fits w hw).spared⟩
  underway := by
    refine ⟨Nat.lt_succ_self _, fun hr => ?_, fun _ c hc hrestore => ?_⟩
    · exact Nat.lt_irrefl _ (h.failed _ hr).1
    · exact Nat.lt_irrefl _ (h.begun c hc _ hrestore)
  alone hmem := by
    obtain ⟨w, hw, hrestore⟩ := List.mem_map.1 hmem
    have hlt := (h.fits w hw).lt
    rw [hrestore] at hlt
    exact Nat.lt_irrefl _ hlt

theorem Turn.fail (h : Turn initial r false d o) : Kept initial (d.fail r) o where
  data := h.kept.data
  failed r' hr' := by
    rcases List.mem_cons.1 hr' with rfl | hold
    · exact ⟨h.underway.lt, h.underway.spared rfl⟩
    · exact h.kept.failed r' hold
  begun := h.kept.begun
  apart := h.kept.apart
  fits w hw := by
    refine ⟨(h.kept.fits w hw).lt, fun hmem => ?_, (h.kept.fits w hw).spared⟩
    rcases List.mem_cons.1 hmem with hself | hold
    · exact h.alone (hself ▸ List.mem_map_of_mem hw)
    · exact (h.kept.fits w hw).unfailed hold

end Kept

/-! ## The programs -/

section Programs

variable {initial : Data T} {d : Device T} {o : List Wait} {r : ℕ} {S : Storage T}

/-- What a restore ends with: only one that succeeds may have changed the data. -/
def Ended (initial : Data T) (r : ℕ) {α : Type} (result : Except Fault α) (d : Device T) (o : List Wait) : Prop :=
  match result with
  | .ok _ => Turn initial r true d o
  | .error _ => Turn initial r false d o

theorem steady_on (step : Prepare) :
    (on (.preparing r step)).Steady (rules initial) True (Turn initial r false) :=
  Program.steady_wait (fun _ _ => turn_iff (w := .preparing r step)) (.inl trivial)

theorem steady_putAttempt (key : GroupControl.Text) (value : Option GroupControl.Text) :
    (write (.preparing r .putAttempts) (·.putAttempt key value)).Steady (rules initial) True (Turn initial r false) :=
  ⟨fun _ _ => turn_iff (w := .preparing r .putAttempts), fun _ _ _ h => h.setAttempts, fun _ _ => trivial, .inl trivial⟩

theorem steady_getAttempts (key : GroupControl.Text) :
    (getAttempts r key).Steady (rules initial) True (Turn initial r false) :=
  ⟨fun _ _ => turn_iff (w := .preparing r .getAttempts), fun _ _ _ h => h, fun _ _ => trivial, .inl trivial⟩

theorem steady_write {w : Wait} {f : Device T → Device T} (hw : w.replaced = true) (hr : w.restore = r)
    (hf : ∀ d o, Turn initial r true d o → Turn initial r true (f d) o)
    (hn : ∀ d : Device T, unhindered w none d = false) :
    (write w f).Steady (rules initial) False (Turn initial r true) := by
  refine ⟨fun d o => ?_, fun _ d o h => hf d o h, fun _ _ => trivial, .inr fun d o h => ?_⟩
  · rw [← hr, ← hw]
    exact turn_iff
  · have hadm : unhindered w none d = true := h
    rw [hn d] at hadm
    cases hadm

theorem deleteFile_holds {Q : Except Fault Bool → Device T → List Wait → Prop} (h : Turn initial r false d o)
    (hQ : ∀ b d o, Turn initial r false d o → Q (.ok b) d o) :
    (deleteFile r).HoldsBeside (tasks S) (rules initial) Q d o := by
  refine HoldsBeside.bind (HoldsBeside.attempt ?_)
  exact (steady_on .deleteFile).holds h (fun _ _ _ => hQ true _ _) fun _ _ _ _ => hQ false _ _

theorem wrongPassword_holds {Q : Except Fault RestoreResult → Device T → List Wait → Prop} (key : GroupControl.Text)
    (attempts : Int64) (h : Turn initial r false d o)
    (hQ : ∀ x d o, x ≠ .ok .success → Turn initial r false d o → Q x d o) :
    (wrongPassword r key attempts).HoldsBeside (tasks S) (rules initial) Q d o := by
  refine HoldsBeside.bind ((steady_putAttempt key _).holds h (fun _ d o h => ?_) fun _ e d o h => hQ _ _ _ (by simp) h)
  show Program.HoldsBeside _ _ _ (if _ then _ else _) _ _
  split
  · refine HoldsBeside.bind ((steady_putAttempt key none).holds h (fun _ d o h => ?_) fun _ e d o h =>
      hQ _ _ _ (by simp) h)
    exact HoldsBeside.bind (deleteFile_holds h fun b d o h => hQ _ _ _ (by simp) h)
  · exact hQ _ _ _ (by simp) h

theorem orThrow_holds {α : Type} {Q : Except Fault α → Device T → List Wait → Prop} {x : Except Fault α}
    (he : ∀ e, Q (.error e) d o) (ha : ∀ a, x = .ok a → Q (.ok a) d o) :
    (orThrow x).HoldsBeside (tasks S) (rules initial) Q d o := by
  cases x with
  | ok a => exact ha a rfl
  | error e => exact he e

theorem orThrow_bind_holds {α β : Type} {Q : Except Fault β → Device T → List Wait → Prop} {x : Except Fault α}
    {g : α → Call T β} (he : ∀ e, Q (.error e) d o)
    (hg : ∀ a, x = .ok a → (g a).HoldsBeside (tasks S) (rules initial) Q d o) :
    (orThrow x >>= g).HoldsBeside (tasks S) (rules initial) Q d o := HoldsBeside.bind (orThrow_holds he hg)

theorem accepts_iff {account : Account} {s : SessionStore} :
    account.accepts s = true ↔ account.validate s = .ok () := by
  unfold Account.accepts
  cases account.validate s with
  | ok u => simp
  | error e => simp

theorem finish_holds {Q : Except Fault Unit → Device T → List Wait → Prop} (key : GroupControl.Text)
    (account : Account) (h : Turn initial r true d o) (hQ : ∀ d o, Turn initial r true d o → Q (.ok ()) d o) :
    (finish r key account).HoldsBeside (tasks S) (rules initial) Q d o := by
  refine HoldsBeside.bind ⟨(turn_iff (w := .resumed r account)).1 h, fun d o hi => ⟨fun hready _ => ?_,
    fun _ _ hadm => ?_⟩⟩
  · cases hready
  show (orThrow (account.validate d.data.session) : Call T Unit).HoldsBeside (tasks S) (rules initial) _ d o
  rw [accepts_iff.1 hadm]
  have hturn : Turn initial r true d o := (turn_iff (w := .resumed r account)).2 hi
  have howner : (write (.putOwner r) (·.change (some r) fun x => x.setOwner account.profile.userId) :
      Call T Unit).Steady (rules initial) False (Turn initial r true) :=
    steady_write rfl rfl (fun _ _ h => h.change) fun _ => rfl
  have hdelete : (write (.deleteAttempts r) (·.putAttempt key none) : Call T Unit).Steady (rules initial) False
      (Turn initial r true) := steady_write rfl rfl (fun _ _ h => h.setAttempts) fun _ => rfl
  refine HoldsBeside.bind (howner.holds hturn (fun _ d o h => ?_) False.elim)
  refine HoldsBeside.bind (HoldsBeside.whenever (fun _ => ?_) fun _ => ?_)
  · refine Program.holds_modify_bind ?_
    refine Program.holds_wait_bind ((turn_iff (w := .profileRestored r)).1 h.change) (fun _ _ _ hready _ => ?_)
      fun _ d o hi _ _ => ?_
    · cases hready
    refine Program.holds_get_bind ?_
    have hpersist : (write (.persist r) (·.change (some r) fun x => x.setSessionFile d.data.session) :
        Call T Unit).Steady (rules initial) False (Turn initial r true) :=
      steady_write rfl rfl (fun _ _ h => h.change) fun _ => rfl
    refine hpersist.holds ((turn_iff (w := .profileRestored r)).2 hi) (fun _ d o h => ?_) False.elim
    exact hdelete.holds h (fun _ => hQ) False.elim
  · exact hdelete.holds h (fun _ => hQ) False.elim

theorem restoreDocument_holds (key : GroupControl.Text) (clear : Option Json) (h : Turn initial r false d o) :
    (restoreDocument S r key clear).HoldsBeside (tasks S) (rules initial) (Ended initial r) d o := by
  refine orThrow_bind_holds (fun _ => h) fun root _ => ?_
  refine orThrow_bind_holds (fun _ => h) fun version _ => ?_
  refine orThrow_bind_holds (fun _ => h) fun profile _ => ?_
  refine Program.holds_get_bind ?_
  refine orThrow_bind_holds (fun _ => h) fun _ _ => ?_
  refine orThrow_bind_holds (fun _ => h) fun database _ => ?_
  split
  · exact h
  rename_i replacement _
  refine HoldsBeside.bind ⟨(turn_iff (w := .preparing r .replaceFromPortableJson)).1 h, fun d o hi => ⟨fun _ _ => ?_,
    fun _ _ _ => ?_⟩⟩
  · exact (turn_iff (w := .preparing r .replaceFromPortableJson)).2 hi
  have hturn : Turn initial r false d o := (turn_iff (w := .preparing r .replaceFromPortableJson)).2 hi
  dsimp only
  split
  · rename_i haccepts
    rw [accepts_iff.1 haccepts]
    exact finish_holds key _ hturn.change fun _ _ h => h
  · rename_i hrejects
    exact orThrow_holds (fun _ => hturn) fun _ hok => absurd (accepts_iff.2 hok) hrejects

theorem restoreBackup_holds {Q : Except Fault RestoreResult → Device T → List Wait → Prop} (file : BackupFile)
    (password : GroupControl.Text) (h : Turn initial r false d o)
    (hs : ∀ d o, Turn initial r true d o → Q (.ok .success) d o)
    (hQ : ∀ x d o, x ≠ .ok .success → Turn initial r false d o → Q x d o) :
    (restoreBackup S r file password).HoldsBeside (tasks S) (rules initial) Q d o := by
  refine HoldsBeside.bind (HoldsBeside.attempt ((steady_on .readAsBytes).holds h (fun _ d o h => ?_)
    fun _ _ d o h => hQ _ _ _ (by simp) h))
  refine HoldsBeside.bind ((steady_on .fingerprint).holds h (fun _ d o h => ?_) fun _ _ d o h => hQ _ _ _ (by simp) h)
  refine HoldsBeside.bind ((steady_getAttempts _).holds h (fun attempts d o h => ?_)
    fun _ _ d o h => hQ _ _ _ (by simp) h)
  show Program.HoldsBeside _ _ _ (if _ then _ else _) _ _
  split
  · exact HoldsBeside.bind (deleteFile_holds h fun b d o h => hQ _ _ _ (by simp) h)
  refine HoldsBeside.bind ((steady_on .decrypt).holds h (fun _ d o h => ?_) fun _ _ d o h => hQ _ _ _ (by simp) h)
  dsimp only
  split
  · exact wrongPassword_holds _ _ h hQ
  refine HoldsBeside.bind (HoldsBeside.attempt ((restoreDocument_holds _ _ h).imp fun result d o hended => ?_))
  cases result with
  | ok _ => exact hs _ _ hended
  | error fault => exact hQ _ _ _ (by simp) hended

theorem program_holds (e : Event T) (h : Kept initial d o) :
    (program S e).HoldsBeside (tasks S) (rules initial) (fun _ => Kept initial) d o := by
  cases e with
  | restore file password =>
    show Program.HoldsBeside _ _ _ ((restoreBackup S d.restores file password).attempt >>= _) d.begin o
    refine HoldsBeside.bind (HoldsBeside.attempt (restoreBackup_holds file password h.begin (fun _ _ h => h.kept)
      fun x d o hx h => ?_))
    rcases x with fault | result
    · exact h.fail
    cases result with
    | success => exact absurd rfl hx
    | _ => exact h.fail
  | other f => exact h.change fun r hr => by cases hr
  | attempts f => exact h.setAttempts

end Programs

/-! ## The runs -/

/-- **A restore that fails has changed nothing**, in every run whose steps meet the condition. -/
theorem failures_run (S : Storage T) (initial : Data T) (attempts : GroupControl.Text → Option GroupControl.Text)
    {q : State T} {ls : List (Pool.Label (Event T) (Option Unit))}
    (hm : Runs.Meets (tasks S).step (Pool.Moves (Tasks.Orderly (rules initial))) ⟨start initial attempts, []⟩ ls)
    (hr : Runs.run (tasks S).step ⟨start initial attempts, []⟩ ls = some q) : q.shared.Untouched initial := by
  have hkept : Kept initial q.shared (Task.labels q.threads) := by
    refine Tasks.holds_run (R := rules initial) (fun _ _ _ hp h => h.perm hp) (fun e d o h _ => program_holds e h)
      ?_ hm hr
    exact ⟨rfl, fun r hr => absurd hr List.not_mem_nil, fun c hc => absurd hc List.not_mem_nil, List.nodup_nil,
      fun w hw => absurd hw List.not_mem_nil⟩
  exact hkept.untouched

section Sample

def ownerNotWritten : List (Pool.Label (Event Json.Fields) (Option Unit)) :=
  [.start (.restore sampleFile "correct-password".toList), go 0, go 0, go 0, go 0, go 0, go 0, go 0, refuse 0]

theorem tables_stay_replaced : ¬ ∀ (T : Type) (S : Storage T) (initial : Data T)
    (attempts : GroupControl.Text → Option GroupControl.Text) (ls : List (Pool.Label (Event T) (Option Unit)))
    (q : State T), Runs.run (tasks S).step ⟨start initial attempts, []⟩ ls = some q → q.shared.Untouched initial := by
  intro h
  have hrun : ∃ q, Runs.run (tasks sampleStorage).step ⟨start sampleData (fun _ => none), []⟩ ownerNotWritten =
      some q ∧ (q.shared.failed = [0] ∧ q.shared.log.map Change.restore = [some 0] ∧
        q.shared.data.tables.isEmpty = false) :=
    Runs.exists_run _ _ (fun q : State Json.Fields => q.shared.failed = [0] ∧
      q.shared.log.map Change.restore = [some 0] ∧ q.shared.data.tables.isEmpty = false) (by decide +kernel)
  obtain ⟨q, hr, hfailed, hlog, htables⟩ := hrun
  have hsame := h Json.Fields sampleStorage sampleData (fun _ => none) ownerNotWritten q hr 0 (by simp [hfailed])
  have hnone : (q.shared.log.filter fun c => decide (c.restore ≠ some 0)) = [] := by
    refine List.filter_eq_nil_iff.2 fun c hc => ?_
    have hrestore : c.restore ∈ q.shared.log.map Change.restore := List.mem_map_of_mem hc
    rw [hlog, List.mem_singleton] at hrestore
    simp [hrestore]
  rw [hnone] at hsame
  rw [hsame] at htables
  cases htables

def secondAttempt : List (Pool.Label (Event Json.Fields) (Option Unit)) :=
  [.start (.restore sampleFile "wrong-password".toList), go 0, go 0, go 0, go 0, go 0, go 0,
    .start (.restore sampleFile "correct-password".toList), go 1, go 1, go 1, go 1, go 1, go 1,
    .start (.other fun x => x.setOwner sampleAccount), go 2, go 1, go 1, go 1, go 1, go 1]

theorem failures_secondAttempt : ∃ q : State Json.Fields,
    Runs.run (tasks sampleStorage).step ⟨start sampleData (fun _ => none), []⟩ secondAttempt = some q ∧
      q.shared.Untouched sampleData := by
  have hrun : ∃ q, Runs.run (tasks sampleStorage).step ⟨start sampleData (fun _ => none), []⟩ secondAttempt =
      some q ∧ (q.shared.failed = [0] ∧ q.shared.log.map Change.restore = [some 1, none, some 1, some 1, some 1]) :=
    Runs.exists_run _ _ (fun q : State Json.Fields => q.shared.failed = [0] ∧
      q.shared.log.map Change.restore = [some 1, none, some 1, some 1, some 1]) (by decide +kernel)
  obtain ⟨q, hr, -⟩ := hrun
  exact ⟨q, hr, failures_run sampleStorage sampleData (fun _ => none) (by decide +kernel) hr⟩

end Sample

end Backup
end SecureChat
