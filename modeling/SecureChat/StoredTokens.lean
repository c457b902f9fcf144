import SecureChat.SessionStore
/-!
# StoredTokens — the stored tokens belong to the stored user

A refresh writes the pair it gets to whatever session is there when the server answers.  So tokens get under another
user's id, and come back after a logout, where the session has been replaced meanwhile.  `tokens_run` says that nothing
else can bring this about.
-/
namespace SecureChat
namespace Session

open Async
open GroupControl (Text)
open Program (get modify HoldsBeside)

section Spec

variable (issuer : Issuer)

def SessionStore.Belongs (s : SessionStore) : Prop :=
  ∀ u ∈ s.userId, ∀ t ∈ s.tokens, (issuer.grant t).map Grant.userId = some u

/-- The stored tokens belong to the stored user, in the memory of every isolate and in the file. -/
structure Device.TokensBelong (d : Device) : Prop where
  memory (i : ℕ) : (d.session i).Belongs issuer
  file : ∀ s ∈ d.file, s.Belongs issuer

/-- No token of a login that has been ended is in the file, or in the memory of the isolate that ended it. -/
structure Device.StaysLoggedOut (d : Device) : Prop where
  memory (i : ℕ) : ∀ n ∈ d.ended i, n ∉ (d.session i).logins issuer
  file (i : ℕ) : ∀ n ∈ d.ended i, ∀ s ∈ d.file, n ∉ s.logins issuer

end Spec

/-- How many logins had begun when the isolate logged out, if this is the write of a logout of it. -/
def Op.before (i : ℕ) : Op → Option ℕ
  | .write j _ _ (.logout before _) => if j = i then some before else none
  | _ => none

/-- The condition on the end of a step.  A session is loaded only if the file still is what was read, and no logout of
the isolate waits; a pair comes in only where its refresh token still is the isolate's, and is written only where it
still is the file's. -/
def timely : Op → Option Answer → Device → List Op → Bool
  | .decrypt i found, some _, d, o => d.file == some found && o.all fun op => (op.before i).isNone
  | .refresh i r, some a, d, _ => !a.yes || (d.session i).refreshToken == some r
  | .reauthenticateWithDevice i _ r, some a, d, _ => !a.yes || (d.session i).refreshToken == some r
  | .write _ _ _ (.refresh r), some _, d, _ => d.file.all fun s => s.refreshToken == some r
  | _, _, _, _ => true

section Tokens

variable {issuer : Issuer} {s : SessionStore} {n : ℕ}

theorem SessionStore.mem_logins : n ∈ s.logins issuer ↔ ∃ t ∈ s.tokens, (issuer.grant t).map Grant.login = some n :=
  List.mem_filterMap

theorem SessionStore.mem_tokens_refreshToken {r : Text} (h : s.refreshToken = some r) : r ∈ s.tokens := by
  unfold SessionStore.tokens
  rw [h]
  exact List.mem_append_right _ (List.mem_singleton_self r)

@[simp] theorem SessionStore.logins_empty : SessionStore.logins issuer {} = [] := rfl

@[simp] theorem SessionStore.logins_expireCredentials : s.expireCredentials.logins issuer = [] := rfl

theorem SessionStore.belongs_empty : SessionStore.Belongs issuer {} := fun u hu => by cases hu

theorem SessionStore.belongs_expireCredentials : s.expireCredentials.Belongs issuer := fun u _ t ht => by cases ht

theorem SessionStore.grant_of_pair {g : Grant} {k : ℕ} {t : Text}
    (ht : t ∈ [(issuer.pair g k).accessToken, (issuer.pair g k).refreshToken]) : issuer.grant t = some g := by
  rcases List.mem_pair.1 ht with rfl | rfl
  · exact issuer.grant_accessToken g k
  · exact issuer.grant_refreshToken g k

theorem SessionStore.belongs_login {u : Text} {m k : ℕ} :
    (SessionStore.login u (issuer.pair ⟨u, m⟩ k)).Belongs issuer := by
  intro v hv t ht
  cases hv
  rw [grant_of_pair ht]
  rfl

theorem SessionStore.logins_login {u : Text} {m k : ℕ}
    (h : n ∈ (SessionStore.login u (issuer.pair ⟨u, m⟩ k)).logins issuer) : n = m := by
  obtain ⟨t, ht, hn⟩ := SessionStore.mem_logins.1 h
  rw [grant_of_pair ht] at hn
  exact (Option.some.inj hn).symm

theorem SessionStore.logins_updateTokens {g : Grant} {k : ℕ}
    (h : n ∈ (s.updateTokens (issuer.pair g k)).logins issuer) : n = g.login := by
  obtain ⟨t, ht, hn⟩ := SessionStore.mem_logins.1 h
  rw [grant_of_pair ht] at hn
  exact (Option.some.inj hn).symm

theorem SessionStore.belongs_updateTokens {r : Text} {g : Grant} {k : ℕ} (hs : s.Belongs issuer)
    (hr : s.refreshToken = some r) (hg : issuer.grant r = some g) :
      (s.updateTokens (issuer.pair g k)).Belongs issuer := by
  intro u hu t ht
  have hu' := hs u hu r (mem_tokens_refreshToken hr)
  rw [hg] at hu'
  rw [grant_of_pair ht]
  exact hu'

theorem issued_eq_some {r : Text} {a : Answer} {pair : TokenPair} (h : issued issuer r a = some pair) :
    a.yes = true ∧ ∃ g, issuer.grant r = some g ∧ pair = issuer.pair g a.serial := by
  unfold issued at h
  split at h
  · obtain ⟨g, hg, rfl⟩ := Option.map_eq_some_iff.1 h
    exact ⟨‹_›, g, hg, rfl⟩
  · cases h

end Tokens

/-! ## The setters -/

namespace Device

variable {d : Device} {i j : ℕ}

theorem session_change (f : Isolate → Isolate) (hf : ∀ s, (f s).session = s.session) :
    (d.change i f).session j = d.session j := by
  unfold session change
  by_cases h : j = i
  · subst h
    cases d.isolates j <;> simp [hf]
  · simp [h]

theorem session_setSession_of_ne (s : SessionStore) (h : j ≠ i) : (d.setSession i s).session j = d.session j := by
  unfold session setSession change
  simp [h]

theorem session_setSession_self (s : SessionStore) :
    (d.setSession i s).session i = s ∨ (d.setSession i s).session i = d.session i := by
  unfold session setSession change
  cases d.isolates i <;> simp

theorem session_setSession (s : SessionStore) (h : ((d.setSession i s).isolates i).isSome) :
    (d.setSession i s).session i = s := by
  unfold session setSession change at *
  cases hs : d.isolates i with
  | none => simp [hs] at h
  | some store => simp

theorem session_of_isolates {s : Isolate} (h : d.isolates i = some s) : d.session i = s.session := by
  unfold session
  rw [h]
  rfl

theorem isSome_change (f : Isolate → Isolate) : ((d.change i f).isolates j).isSome = (d.isolates j).isSome := by
  unfold change
  by_cases h : j = i
  · subst h
    simp
  · simp [h]

end Device

/-! ## The invariant -/

section Invariant

variable (issuer : Issuer)

def Purpose.Due (d : Device) (i : ℕ) (snapshot : SessionStore) : Purpose → Prop
  | .login n => n < d.logins ∧ ∀ m ∈ snapshot.logins issuer, m = n
  | .refresh r => ∀ m ∈ snapshot.logins issuer, m < d.logins ∧ (issuer.grant r).map Grant.login = some m
  | .expiry => snapshot.logins issuer = []
  | .logout before held => snapshot.logins issuer = [] ∧ before ≤ d.logins ∧ (∀ m ∈ held, m < before) ∧
    ∀ m ∈ (d.session i).logins issuer, before ≤ m

/-- What holds while a step is awaited. -/
def Op.Fits (d : Device) : Op → Prop
  | .opening _ found => found.Belongs issuer ∧ ∀ m ∈ found.logins issuer, m < d.logins
  | .write i _ snapshot purpose => (d.isolates i).isSome ∧ snapshot.Belongs issuer ∧ purpose.Due issuer d i snapshot
  | _ => True

structure Sound (d : Device) (o : List Op) : Prop where
  belong : d.TokensBelong issuer
  out : d.StaysLoggedOut issuer
  noFile : d.file = none → ∀ i, d.ended i = []
  notOpen (i : ℕ) : d.isolates i = none → d.ended i = []
  memoryBegun (i : ℕ) : ∀ n ∈ (d.session i).logins issuer, n < d.logins
  fileBegun : ∀ s ∈ d.file, ∀ n ∈ s.logins issuer, n < d.logins
  storedBegun : ∀ n ∈ d.stored, n < d.logins
  endedBegun (i : ℕ) : ∀ n ∈ d.ended i, n < d.logins
  fits : ∀ op ∈ o, op.Fits issuer d

abbrev rules : Tasks.Rules Answer Op Device Event :=
  ⟨Sound issuer, fun _ _ _ => True, fun op answer d o => timely op answer d o = true⟩

end Invariant

section Sound

variable {issuer : Issuer} {d d' : Device} {o : List Op} {op : Op} {i n : ℕ}

theorem Sound.cons (h : Sound issuer d o) (hop : op.Fits issuer d) : Sound issuer d (op :: o) :=
  { h with fits := List.forall_mem_cons.2 ⟨hop, h.fits⟩ }

theorem Sound.tail (h : Sound issuer d (op :: o)) : Sound issuer d o :=
  { h with fits := (List.forall_mem_cons.1 h.fits).2 }

theorem Sound.head (h : Sound issuer d (op :: o)) : op.Fits issuer d := (List.forall_mem_cons.1 h.fits).1

theorem sound_cons_iff (hop : ∀ d, op.Fits issuer d) : Sound issuer d o ↔ Sound issuer d (op :: o) :=
  ⟨fun h => h.cons (hop d), Sound.tail⟩

/-- What is due stays due where only logins come into the memory of an isolate that began after its logout. -/
theorem Op.Fits.mono (h : op.Fits issuer d) (hopen : ∀ i, (d.isolates i).isSome → (d'.isolates i).isSome)
    (hl : d.logins ≤ d'.logins) (hs : ∀ i b, op.before i = some b → ∀ m ∈ (d'.session i).logins issuer,
      m ∈ (d.session i).logins issuer ∨ b ≤ m) : op.Fits issuer d' := by
  cases op with
  | opening i found => exact ⟨h.1, fun m hm => Nat.lt_of_lt_of_le (h.2 m hm) hl⟩
  | write i n snapshot purpose =>
    refine ⟨hopen i h.1, h.2.1, ?_⟩
    have hdue := h.2.2
    cases purpose with
    | login n => exact ⟨Nat.lt_of_lt_of_le hdue.1 hl, hdue.2⟩
    | refresh r => exact fun m hm => ⟨Nat.lt_of_lt_of_le (hdue m hm).1 hl, (hdue m hm).2⟩
    | expiry => exact hdue
    | logout before held =>
      obtain ⟨h1, h2, h3, h4⟩ := hdue
      refine ⟨h1, Nat.le_trans h2 hl, h3, fun m hm => ?_⟩
      rcases hs i before (if_pos rfl) m hm with hm | hm
      · exact h4 m hm
      · exact hm
  | _ => trivial

theorem Sound.before_le (h : Sound issuer d o) {b : ℕ} (hop : op ∈ o) (hb : op.before i = some b) :
    b ≤ d.logins ∧ ∀ m ∈ (d.session i).logins issuer, b ≤ m := by
  have hfits := h.fits op hop
  unfold Op.before at hb
  split at hb
  · split at hb
    · cases hb
      subst i
      exact ⟨hfits.2.2.2.1, hfits.2.2.2.2.2⟩
    · cases hb
  · cases hb

theorem Sound.same (h : Sound issuer d o) (hs : ∀ i, d'.session i = d.session i)
    (hopen : ∀ i, (d'.isolates i).isSome = (d.isolates i).isSome) (hf : d'.file = d.file) (hl : d'.logins = d.logins)
    (hst : d'.stored = d.stored) (he : d'.ended = d.ended) : Sound issuer d' o where
  belong := ⟨fun i => by rw [hs]; exact h.belong.memory i, by rw [hf]; exact h.belong.file⟩
  out := ⟨fun i => by rw [hs, he]; exact h.out.memory i, by rw [hf, he]; exact h.out.file⟩
  noFile := by rw [hf, he]; exact h.noFile
  notOpen i hi := by
    rw [he]
    have hsome := hopen i
    rw [hi] at hsome
    exact h.notOpen i (Option.isSome_eq_false_iff.1 hsome.symm |> Option.isNone_iff_eq_none.1)
  memoryBegun i := by rw [hs, hl]; exact h.memoryBegun i
  fileBegun := by rw [hf, hl]; exact h.fileBegun
  storedBegun := by rw [hst, hl]; exact h.storedBegun
  endedBegun i := by rw [he, hl]; exact h.endedBegun i
  fits op hop := by
    refine (h.fits op hop).mono (fun i hi => (hopen i).trans hi) (Nat.le_of_eq hl.symm) fun i _ _ m hm => .inl ?_
    rw [hs] at hm
    exact hm

theorem Sound.change (h : Sound issuer d o) {f : Isolate → Isolate} (hf : ∀ s, (f s).session = s.session) :
    Sound issuer (d.change i f) o :=
  h.same (fun _ => Device.session_change f hf) (fun _ => Device.isSome_change f) rfl rfl rfl rfl

theorem Sound.setLocked (h : Sound issuer d o) (locked : Bool) : Sound issuer (d.setLocked locked) o :=
  h.same (fun _ => rfl) (fun _ => rfl) rfl rfl rfl rfl

/-- The sessions of some isolates are replaced by `s`. -/
theorem Sound.replace {s : SessionStore} (h : Sound issuer d o)
    (hs : ∀ j, d'.session j = d.session j ∨ j = i ∧ d'.session j = s)
    (hopen : ∀ j, (d.isolates j).isSome → (d'.isolates j).isSome) (hf : d'.file = d.file) (hl : d'.logins = d.logins)
    (hst : d'.stored = d.stored) (he : d'.ended = d.ended) (hb : s.Belongs issuer)
    (hbegun : ∀ n ∈ s.logins issuer, n < d.logins) (hout : ∀ n ∈ d.ended i, n ∉ s.logins issuer)
    (hdue : ∀ op ∈ o, ∀ b, op.before i = some b → ∀ m ∈ s.logins issuer, b ≤ m) : Sound issuer d' o := by
  refine ⟨⟨fun j => ?_, by rw [hf]; exact h.belong.file⟩, ⟨fun j => ?_, by rw [hf, he]; exact h.out.file⟩,
    by rw [hf, he]; exact h.noFile, fun j hj => ?_, fun j => ?_, by rw [hf, hl]; exact h.fileBegun,
    by rw [hst, hl]; exact h.storedBegun, by rw [he, hl]; exact h.endedBegun, fun op hop => ?_⟩
  · rcases hs j with hj | ⟨-, hj⟩
    · rw [hj]
      exact h.belong.memory j
    · rw [hj]
      exact hb
  · rcases hs j with hj | ⟨rfl, hj⟩
    · rw [hj, he]
      exact h.out.memory j
    · rw [hj, he]
      exact hout
  · rw [he]
    cases hd : d.isolates j with
    | none => exact h.notOpen j hd
    | some store =>
      have hsome := hopen j (by rw [hd]; rfl)
      rw [hj] at hsome
      cases hsome
  · rcases hs j with hj | ⟨-, hj⟩
    · rw [hj, hl]
      exact h.memoryBegun j
    · rw [hj, hl]
      exact hbegun
  · refine (h.fits op hop).mono hopen (Nat.le_of_eq hl.symm) fun j b hb m hm => ?_
    rcases hs j with hj | ⟨rfl, hj⟩
    · rw [hj] at hm
      exact .inl hm
    · rw [hj] at hm
      exact .inr (hdue op hop b hb m hm)

theorem Sound.setSession {s : SessionStore} (h : Sound issuer d o) (hb : s.Belongs issuer)
    (hbegun : ∀ n ∈ s.logins issuer, n < d.logins) (hout : ∀ n ∈ d.ended i, n ∉ s.logins issuer)
    (hdue : ∀ op ∈ o, ∀ b, op.before i = some b → ∀ m ∈ s.logins issuer, b ≤ m) :
    Sound issuer (d.setSession i s) o := by
  refine h.replace (fun j => ?_) (fun j hj => ?_) rfl rfl rfl rfl hb hbegun hout hdue
  · by_cases hj : j = i
    · subst hj
      exact (Device.session_setSession_self s).symm.imp id fun h' => ⟨rfl, h'⟩
    · exact .inl (Device.session_setSession_of_ne s hj)
  · exact (Device.isSome_change _).trans hj

theorem Sound.setSession_empty {s : SessionStore} (h : Sound issuer d o) (hb : s.Belongs issuer)
    (hs : s.logins issuer = []) : Sound issuer (d.setSession i s) o := by
  have hnone : ∀ n, n ∉ s.logins issuer := fun n hn => by
    rw [hs] at hn
    cases hn
  exact h.setSession hb (fun n hn => absurd hn (hnone n)) (fun n _ => hnone n) fun _ _ _ _ m hm => absurd hm (hnone m)

theorem Sound.updateTokens {r : Text} {g : Grant} {k : ℕ} (h : Sound issuer d o)
    (hr : (d.session i).refreshToken = some r) (hg : issuer.grant r = some g) :
    Sound issuer (d.setSession i ((d.session i).updateTokens (issuer.pair g k))) o := by
  have hmem : g.login ∈ (d.session i).logins issuer := by
    refine SessionStore.mem_logins.2 ⟨r, SessionStore.mem_tokens_refreshToken hr, ?_⟩
    rw [hg]
    rfl
  have hlogins : ∀ n ∈ ((d.session i).updateTokens (issuer.pair g k)).logins issuer, n = g.login := fun n hn =>
    SessionStore.logins_updateTokens hn
  refine h.setSession (SessionStore.belongs_updateTokens (h.belong.memory i) hr hg) (fun n hn => ?_) (fun n hn hm => ?_)
    fun op hop b hb m hm => ?_
  · rw [hlogins n hn]
    exact h.memoryBegun i _ hmem
  · rw [hlogins n hm] at hn
    exact h.out.memory i _ hn hmem
  · rw [hlogins m hm]
    exact (h.before_le hop hb).2 _ hmem

theorem Sound.load {s : SessionStore} (h : Sound issuer d o) (hs : d.file = some s)
    (ho : ∀ op ∈ o, op.before i = none) : Sound issuer (d.setSession i s) o := by
  refine h.setSession (h.belong.file s hs) (h.fileBegun s hs) (fun n hn => h.out.file i n hn s hs) fun op hop b hb => ?_
  rw [ho op hop] at hb
  cases hb

theorem Sound.beginLogin (h : Sound issuer d o) : Sound issuer d.beginLogin o where
  belong := ⟨h.belong.memory, h.belong.file⟩
  out := ⟨h.out.memory, h.out.file⟩
  noFile := h.noFile
  notOpen := h.notOpen
  memoryBegun i n hn := Nat.lt_succ_of_lt (h.memoryBegun i n hn)
  fileBegun s hs n hn := Nat.lt_succ_of_lt (h.fileBegun s hs n hn)
  storedBegun n hn := Nat.lt_succ_of_lt (h.storedBegun n hn)
  endedBegun i n hn := Nat.lt_succ_of_lt (h.endedBegun i n hn)
  fits op hop := (h.fits op hop).mono (fun _ hi => hi) (Nat.le_succ _) fun _ _ _ _ hm => .inl hm

theorem Sound.login {u : Text} {k : ℕ} (h : Sound issuer d o) :
    Sound issuer (d.beginLogin.setSession i (.login u (issuer.pair ⟨u, d.logins⟩ k))) o := by
  have hlogins : ∀ n ∈ (SessionStore.login u (issuer.pair ⟨u, d.logins⟩ k)).logins issuer, n = d.logins := fun n hn =>
    SessionStore.logins_login hn
  refine h.beginLogin.setSession SessionStore.belongs_login (fun n hn => ?_) (fun n hn hm => ?_)
    fun op hop b hb m hm => ?_
  · rw [hlogins n hn]
    exact Nat.lt_succ_self _
  · rw [hlogins n hm] at hn
    exact Nat.lt_irrefl _ (h.endedBegun i _ hn)
  · rw [hlogins m hm]
    exact (h.before_le hop hb).1

theorem Sound.opened {s : SessionStore} (h : Sound issuer d o) (hb : s.Belongs issuer)
    (hbegun : ∀ n ∈ s.logins issuer, n < d.logins) : Sound issuer (d.opened i s) o := by
  unfold Device.opened
  split
  · exact h
  · rename_i hnot
    have hnone : d.isolates i = none := Option.not_isSome_iff_eq_none.1 hnot
    refine Sound.replace (i := i) h (fun j => ?_) (fun j hj => ?_) rfl rfl rfl rfl hb hbegun (fun n hn => ?_)
      fun op hop b hop' => ?_
    · by_cases hj : j = i
      · subst hj
        exact .inr ⟨rfl, by simp [Device.session]⟩
      · refine .inl ?_
        unfold Device.session
        simp only [Function.update_of_ne hj]
    · have hji : j ≠ i := fun hji => by
        subst hji
        exact hnot hj
      simp only [Function.update_of_ne hji]
      exact hj
    · rw [h.notOpen i hnone] at hn
      cases hn
    · have hfits := h.fits op hop
      unfold Op.before at hop'
      split at hop'
      · split at hop'
        · subst i
          exact absurd hfits.1 hnot
        · cases hop'
      · cases hop'

/-! ### What a write leaves -/

theorem Sound.setFile {s : SessionStore} (h : Sound issuer d o) (hb : s.Belongs issuer)
    (hbegun : ∀ n ∈ s.logins issuer, n < d.logins) (hout : ∀ i, ∀ n ∈ d.ended i, n ∉ s.logins issuer) :
    Sound issuer (d.setFile s) o where
  belong := ⟨h.belong.memory, fun t ht => by cases ht; exact hb⟩
  out := ⟨h.out.memory, fun i n hn t ht => by cases ht; exact hout i n hn⟩
  noFile hf := by cases hf
  notOpen := h.notOpen
  memoryBegun := h.memoryBegun
  fileBegun t ht := by cases ht; exact hbegun
  storedBegun := h.storedBegun
  endedBegun := h.endedBegun
  fits op hop := (h.fits op hop).mono (fun _ hi => hi) (Nat.le_refl _) fun _ _ _ _ hm => .inl hm

theorem Sound.record_login (h : Sound issuer d o) (hn : n < d.logins) : Sound issuer (d.record i (.login n)) o where
  belong := ⟨h.belong.memory, h.belong.file⟩
  out := ⟨fun j m hm => h.out.memory j m (List.mem_filter.1 hm).1, fun j m hm =>
    h.out.file j m (List.mem_filter.1 hm).1⟩
  noFile hf j := by
    have hnil := h.noFile hf j
    simp [Device.record, hnil]
  notOpen j hj := by
    have hnil := h.notOpen j hj
    simp [Device.record, hnil]
  memoryBegun := h.memoryBegun
  fileBegun := h.fileBegun
  storedBegun := List.forall_mem_cons.2 ⟨hn, h.storedBegun⟩
  endedBegun j m hm := h.endedBegun j m (List.mem_filter.1 hm).1
  fits op hop := (h.fits op hop).mono (fun _ hi => hi) (Nat.le_refl _) fun _ _ _ _ hm => .inl hm

theorem Device.ended_record_logout {before : ℕ} {held : List ℕ} {j m : ℕ}
    (h : m ∈ (d.record i (.logout before held)).ended j) :
    m ∈ d.ended j ∨ j = i ∧ (m < before ∧ m ∈ d.stored ∨ m ∈ held) := by
  by_cases hj : j = i
  · subst hj
    simp only [Device.record, Function.update_self, List.mem_append, List.mem_filter, decide_eq_true_eq] at h
    rcases h with (⟨hst, hlt⟩ | hheld) | hend
    · exact .inr ⟨rfl, .inl ⟨hlt, hst⟩⟩
    · exact .inr ⟨rfl, .inr hheld⟩
    · exact .inl hend
  · simp only [Device.record, Function.update_of_ne hj] at h
    exact .inl h

theorem Sound.record_logout {before : ℕ} {held : List ℕ} (h : Sound issuer d o) (hopen : (d.isolates i).isSome)
    (hf : ∃ s, d.file = some s ∧ s.logins issuer = []) (hbefore : before ≤ d.logins) (hheld : ∀ m ∈ held, m < before)
    (hmem : ∀ m ∈ (d.session i).logins issuer, before ≤ m) : Sound issuer (d.record i (.logout before held)) o where
  belong := ⟨h.belong.memory, h.belong.file⟩
  out := by
    refine ⟨fun j m hm hj => ?_, fun j m _ s hs hj => ?_⟩
    · rcases Device.ended_record_logout hm with hend | ⟨rfl, ⟨hlt, -⟩ | hin⟩
      · exact h.out.memory j m hend hj
      · exact Nat.not_lt.2 (hmem m hj) hlt
      · exact Nat.not_lt.2 (hmem m hj) (hheld m hin)
    · obtain ⟨s', hs', hnil⟩ := hf
      cases hs.symm.trans hs'
      rw [hnil] at hj
      cases hj
  noFile hnone := by
    obtain ⟨s', hs', -⟩ := hf
    cases hs'.symm.trans hnone
  notOpen j hj := by
    have hji : j ≠ i := fun hji => by
      subst hji
      have hnone : d.isolates j = none := hj
      rw [hnone] at hopen
      cases hopen
    simp only [Device.record, Function.update_of_ne hji]
    exact h.notOpen j hj
  memoryBegun := h.memoryBegun
  fileBegun := h.fileBegun
  storedBegun := h.storedBegun
  endedBegun j m hm := by
    rcases Device.ended_record_logout hm with hend | ⟨rfl, ⟨hlt, -⟩ | hin⟩
    · exact h.endedBegun j m hend
    · exact Nat.lt_of_lt_of_le hlt hbefore
    · exact Nat.lt_of_lt_of_le (hheld m hin) hbefore
  fits op hop := (h.fits op hop).mono (fun _ hi => hi) (Nat.le_refl _) fun _ _ _ _ hm => .inl hm

theorem Sound.written {k : ℕ} {s : SessionStore} {purpose : Purpose} {a : Answer}
    (h : Sound issuer d (.write i k s purpose :: o)) (ht : timely (.write i k s purpose) (some a) d o = true) :
    Sound issuer (d.written i s purpose) o := by
  obtain ⟨hopen, hb, hdue⟩ := h.head
  have hended : Sound issuer (d.writeEnded i) o := h.tail.change fun _ => rfl
  cases purpose with
  | login n =>
    refine (hended.record_login (i := i) hdue.1).setFile hb (fun m hm => ?_) fun j m hm hs => ?_
    · rw [hdue.2 m hm]
      exact hdue.1
    · have hne := (List.mem_filter.1 hm).2
      simp [hdue.2 m hs] at hne
  | refresh r =>
    refine hended.setFile hb (fun m hm => (hdue m hm).1) fun j m hm hs => ?_
    cases hf : d.file with
    | none =>
      have hnil : d.ended j = [] := h.noFile hf j
      have hm' : m ∈ d.ended j := hm
      rw [hnil] at hm'
      cases hm'
    | some found =>
      have hfound : found.refreshToken = some r := by
        simp only [timely, hf, Option.all_some, beq_iff_eq] at ht
        exact ht
      exact h.out.file j m hm found hf (SessionStore.mem_logins.2 ⟨r, SessionStore.mem_tokens_refreshToken hfound,
        (hdue m hs).2⟩)
  | expiry =>
    refine hended.setFile hb (fun m hm => ?_) fun j m _ hs => ?_
    · rw [hdue] at hm
      cases hm
    · rw [hdue] at hs
      cases hs
  | logout before held =>
    obtain ⟨hnil, hbefore, hheld, hmem⟩ := hdue
    have hnone : ∀ m, m ∉ s.logins issuer := fun m hm => by
      rw [hnil] at hm
      cases hm
    refine (hended.setFile hb (fun m hm => absurd hm (hnone m)) fun _ m _ => hnone m).record_logout
      ((Device.isSome_change _).trans hopen) ⟨s, rfl, hnil⟩ hbefore hheld fun m hm => hmem m ?_
    have hsame : (d.writeEnded i).session i = d.session i := Device.session_change _ fun _ => rfl
    rw [← hsame]
    exact hm

end Sound

/-! ## The programs -/

section Programs

variable {issuer : Issuer} {d : Device} {o : List Op} {i : ℕ}

abbrev Keeps (issuer : Issuer) {α : Type} (p : Call α) : Prop := p.Preserves (tasks issuer) (rules issuer)

theorem keeps_on (op : Op) (hop : ∀ d, op.Fits issuer d) : Keeps issuer (on op) :=
  Program.preserves_wait fun _ _ => sound_cons_iff hop

theorem keeps_fail {α : Type} : Keeps issuer (fail : Call α) := Program.preserves_throw ()

theorem keeps_change {f : Isolate → Isolate} (hf : ∀ s, (f s).session = s.session) :
    Keeps issuer (modify (·.change i f)) := Program.preserves_modify fun _ _ h => h.change hf

theorem readFile_holds {Q : Except Unit (Option SessionStore) → Device → List Op → Prop} (h : Sound issuer d o)
    (hok : ∀ d o, Sound issuer d o → Q (.ok d.file) d o) (hfail : ∀ d o, Sound issuer d o → Q (.error ()) d o) :
    readFile.HoldsBeside (tasks issuer) (rules issuer) Q d o :=
  ⟨h.cons trivial, fun d' o' hi => ⟨fun _ _ => hfail d' o' hi.tail, fun _ _ _ => hok d' o' hi.tail⟩⟩

theorem keeps_openStore : Keeps issuer (openStore i) := by
  intro Q d o h hQ
  refine HoldsBeside.bind (readFile_holds h (fun d o h => ?_) fun d o h => hQ _ d o h)
  dsimp only
  cases hf : d.file with
  | none =>
    exact hQ _ _ o (h.opened SessionStore.belongs_empty fun _ hn => by cases hn)
  | some found =>
    have hfits : (Op.opening i found).Fits issuer d := ⟨h.belong.file found hf, h.fileBegun found hf⟩
    refine Program.holds_wait_bind (h.cons hfits) (fun d o hi _ _ => hQ _ d o hi.tail) fun _ d o hi _ _ => ?_
    exact hQ _ _ o (hi.tail.opened hi.head.1 hi.head.2)

theorem keeps_reloadFromDisk : Keeps issuer (reloadFromDisk i) := by
  intro Q d o h hQ
  refine Program.holds_get_bind ?_
  split
  · exact hQ _ d o h
  · refine HoldsBeside.bind (readFile_holds h (fun d o h => ?_) fun d o h => hQ _ d o h)
    dsimp only
    cases d.file with
    | none => exact hQ _ d o h
    | some found =>
      refine Program.holds_wait_bind (h.cons trivial) (fun d o hi _ _ => hQ _ d o hi.tail) fun _ d o hi _ ht => ?_
      have ht' : (d.file == some found && o.all fun op => (op.before i).isNone) = true := ht
      rw [Bool.and_eq_true, beq_iff_eq, List.all_eq_true] at ht'
      exact hQ _ _ o (hi.tail.load ht'.1 fun op hop => Option.isNone_iff_eq_none.1 (ht'.2 op hop))

theorem persist_holds {Q : Except Unit Unit → Device → List Op → Prop} {purpose : Purpose} (h : Sound issuer d o)
    (hdue : (d.isolates i).isSome → purpose.Due issuer d i (d.session i)) (hQ : ∀ r d o, Sound issuer d o → Q r d o) :
    (persist i purpose).HoldsBeside (tasks issuer) (rules issuer) Q d o := by
  refine Program.holds_get_bind ?_
  cases hs : d.isolates i with
  | none => exact hQ _ d o h
  | some store =>
    dsimp only
    split
    · exact hQ _ d o h
    · refine Program.holds_modify_bind ?_
      have hsession : d.session i = store.session := Device.session_of_isolates hs
      rw [hs, hsession] at hdue
      have hchange : Sound issuer (d.change i fun s => { s with writes := s.writes + 1 }) o := h.change fun _ => rfl
      have hfits : (Op.write i store.writes store.session purpose).Fits issuer d :=
        ⟨by rw [hs]; rfl, hsession ▸ h.belong.memory i, hdue rfl⟩
      refine ⟨hchange.cons (hfits.mono (fun j hj => (Device.isSome_change _).trans hj) (Nat.le_refl _)
        fun j _ _ m hm => .inl ?_), fun d' o' hi => ⟨fun _ _ => ?_, fun a _ ht => ?_⟩⟩
      · have hsame := Device.session_change (d := d) (i := i) (j := j) (fun s => { s with writes := s.writes + 1 })
          fun _ => rfl
        rw [hsame] at hm
        exact hm
      · exact hQ _ _ o' (hi.tail.change fun _ => rfl)
      · exact hQ _ _ o' (hi.written ht)

theorem keeps_login {u : Text} {k : ℕ} : Keeps issuer (login issuer i u k) := by
  intro Q d o h hQ
  refine Program.holds_get_bind (Program.holds_modify_bind (Program.holds_modify_bind ?_))
  refine persist_holds h.login (fun hopen => ⟨Nat.lt_succ_self _, fun m hm => ?_⟩) hQ
  rw [Device.session_setSession _ hopen] at hm
  exact SessionStore.logins_login hm

theorem keeps_clearAndPersist : Keeps issuer (clearAndPersist issuer i) := by
  intro Q d o h hQ
  refine Program.holds_get_bind (Program.holds_modify_bind ?_)
  refine persist_holds (h.setSession_empty SessionStore.belongs_empty rfl) (fun hopen => ?_) hQ
  rw [Purpose.Due, Device.session_setSession _ hopen]
  exact ⟨rfl, Nat.le_refl _, h.memoryBegun i, fun m hm => by cases hm⟩

theorem keeps_expireCredentialsAndPersist : Keeps issuer (expireCredentialsAndPersist i) := by
  intro Q d o h hQ
  refine Program.holds_modify_bind ?_
  refine persist_holds (h.setSession_empty SessionStore.belongs_expireCredentials rfl) (fun hopen => ?_) hQ
  rw [Device.session_setSession _ hopen]
  rfl

theorem updateTokensAndPersist_holds {Q : Except Unit Unit → Device → List Op → Prop} {r : Text} {a : Answer}
    {pair : TokenPair} (h : Sound issuer d o) (hpair : issued issuer r a = some pair)
    (hr : a.yes = true → (d.session i).refreshToken = some r) (hQ : ∀ r d o, Sound issuer d o → Q r d o) :
    (updateTokensAndPersist i r pair).HoldsBeside (tasks issuer) (rules issuer) Q d o := by
  obtain ⟨hyes, g, hg, rfl⟩ := issued_eq_some hpair
  have hsound := h.updateTokens (k := a.serial) (hr hyes) hg
  refine Program.holds_modify_bind (persist_holds hsound (fun hopen => ?_) hQ)
  rw [Purpose.Due]
  intro m hm
  refine ⟨hsound.memoryBegun i m hm, ?_⟩
  rw [Device.session_setSession _ hopen] at hm
  rw [hg, SessionStore.logins_updateTokens hm]
  rfl

def Offered (issuer : Issuer) (i : ℕ) (r : Text) (pair : Option TokenPair) (d : Device) : Prop :=
  ∀ p ∈ pair, ∃ a, issued issuer r a = some p ∧ (a.yes = true → (d.session i).refreshToken = some r)

theorem ask_holds {Q : Except Unit (Option TokenPair) → Device → List Op → Prop} {r : Text} {op : Op}
    (hfits : ∀ d, op.Fits issuer d) (htimely : ∀ a d o, timely op (some a) d o = true → a.yes = true →
      (d.session i).refreshToken = some r) (h : Sound issuer d o)
    (hok : ∀ pair d o, Sound issuer d o → Offered issuer i r pair d → Q (.ok pair) d o)
    (hfail : ∀ d o, Sound issuer d o → Q (.error ()) d o) :
    (do
      let answer ← on op
      pure (issued issuer r answer) : Call (Option TokenPair)).HoldsBeside (tasks issuer) (rules issuer) Q d o := by
  refine Program.holds_wait_bind (h.cons (hfits d)) (fun d o hi _ _ => hfail d o hi.tail) fun a d o hi _ ht => ?_
  exact hok _ d o hi.tail fun p hp => ⟨a, hp, htimely a d o ht⟩

theorem timely_refresh {r : Text} {a : Answer} (h : timely (.refresh i r) (some a) d o = true) (ha : a.yes = true) :
    (d.session i).refreshToken = some r := by
  simpa [timely, ha] using h

theorem timely_reauthenticateWithDevice {u r : Text} {a : Answer}
    (h : timely (.reauthenticateWithDevice i u r) (some a) d o = true) (ha : a.yes = true) :
    (d.session i).refreshToken = some r := by
  simpa [timely, ha] using h

theorem reauthenticateWithDevice_holds {Q : Except Unit (Option TokenPair) → Device → List Op → Prop} {r : Text}
    {deviceKey : Bool} (h : Sound issuer d o)
    (hok : ∀ pair d o, Sound issuer d o → Offered issuer i r pair d → Q (.ok pair) d o)
    (hfail : ∀ d o, Sound issuer d o → Q (.error ()) d o) :
    (reauthenticateWithDevice issuer i deviceKey r).HoldsBeside (tasks issuer) (rules issuer) Q d o := by
  have hnone : ∀ d o, Sound issuer d o → Q (.ok none) d o := fun d o h => hok none d o h fun p hp => by cases hp
  refine Program.holds_get_bind ?_
  cases (d.session i).userId with
  | none => exact hnone d o h
  | some u =>
    dsimp only
    split
    · exact hnone d o h
    · refine Program.holds_wait_bind (h.cons trivial) (fun d o hi _ _ => hfail d o hi.tail) fun key d o hi _ _ => ?_
      split
      · exact hnone d o hi.tail
      · exact ask_holds (fun _ => trivial) (fun _ _ _ => timely_reauthenticateWithDevice) hi.tail hok hfail

theorem keeps_renew {deviceKey : Bool} {failed : Option Text} {session : SessionStore} :
    Keeps issuer (renew issuer i deviceKey failed session) := by
  intro Q d o h hQ
  have hupdate : ∀ {r : Text} {p : TokenPair} {d : Device} {o : List Op}, Sound issuer d o →
      Offered issuer i r (some p) d → (do
        updateTokensAndPersist i r p
        pure (some p.accessToken) : Call (Option Text)).HoldsBeside (tasks issuer) (rules issuer) Q d o := by
    intro r p d o h hoffered
    obtain ⟨a, ha, hr⟩ := hoffered p rfl
    refine HoldsBeside.bind (updateTokensAndPersist_holds h ha hr fun result d o h => ?_)
    cases result with
    | ok _ => exact hQ _ d o h
    | error _ => exact hQ _ d o h
  unfold renew
  split
  · exact hQ _ d o h
  · cases session.refreshToken.filter (· ≠ []) with
    | none => exact hQ _ d o h
    | some r =>
      refine HoldsBeside.bind (ask_holds (i := i) (r := r) (fun _ => trivial) (fun _ _ _ => timely_refresh) h
        (fun pair d o h hoffered => ?_) fun d o h => hQ _ d o h)
      cases pair with
      | some p => exact hupdate h hoffered
      | none =>
        refine HoldsBeside.bind (reauthenticateWithDevice_holds (i := i) (r := r) h (fun pair d o h hoffered => ?_)
          fun d o h => hQ _ d o h)
        cases pair with
        | some p => exact hupdate h hoffered
        | none =>
          exact (keeps_expireCredentialsAndPersist.bind fun _ => Program.preserves_pure none) Q d o h hQ

theorem keeps_withRefreshLock {α : Type} {action : Call α} (ha : Keeps issuer action) :
    Keeps issuer (withRefreshLock i action) := by
  refine Program.preserves_get.bind fun _ => (keeps_change fun _ => by rfl).bind fun _ => ?_
  refine (keeps_on _ fun _ => by trivial).bind fun _ => Program.Preserves.bind ?_ fun owner => ?_
  · intro Q d o h hQ
    refine ⟨h.cons trivial, fun d o hi => ⟨fun _ _ => hQ _ d o hi.tail, fun a _ _ => hQ _ _ o ?_⟩⟩
    dsimp only
    split
    · exact hi.tail.setLocked true
    · exact hi.tail
  · refine ha.attempt.bind fun result => Program.Preserves.bind (Program.Preserves.whenever ?_) fun _ => ?_
    · refine Program.Preserves.bind (Program.Preserves.attempt ?_) fun _ => Program.preserves_pure ()
      intro Q d o h hQ
      exact ⟨h.cons trivial, fun d o hi => ⟨fun _ _ => hQ _ d o hi.tail,
        fun _ _ _ => hQ _ _ o (hi.tail.setLocked false)⟩⟩
    · refine (keeps_change fun _ => by rfl).bind fun _ => ?_
      cases result with
      | ok a => exact Program.preserves_pure a
      | error e => exact keeps_fail

theorem keeps_clearLocalAuthentication : Keeps issuer (clearLocalAuthentication issuer i) := by
  refine (keeps_on _ fun _ => by trivial).bind fun _ => (keeps_on _ fun _ => by trivial).attempt.bind fun result => ?_
  refine keeps_clearAndPersist.bind fun _ => ?_
  cases result with
  | ok _ => exact Program.preserves_pure ()
  | error _ => exact keeps_fail

theorem keeps_logout : Keeps issuer (logout issuer i) := by
  refine Program.preserves_get.bind fun d => ?_
  split
  · exact (keeps_on _ fun _ => by trivial).attempt.bind fun _ => keeps_clearLocalAuthentication
  · exact keeps_clearLocalAuthentication

theorem keeps_refreshSessionTokens {deviceKey : Bool} : Keeps issuer (refreshSessionTokens issuer i deviceKey) := by
  refine Program.preserves_get.bind fun _ => keeps_withRefreshLock ?_
  exact keeps_reloadFromDisk.bind fun _ => Program.preserves_get.bind fun _ => keeps_renew

theorem keeps_program : ∀ x, Keeps issuer (program issuer x)
  | .openStore _ => keeps_openStore
  | .login _ _ _ => keeps_login
  | .refresh _ _ => keeps_refreshSessionTokens.bind fun _ => Program.preserves_pure ()
  | .logout _ => keeps_logout
  | .clear _ => keeps_clearAndPersist
  | .expire _ => keeps_expireCredentialsAndPersist
  | .reload _ => keeps_reloadFromDisk
  | .close _ => keeps_change fun _ => by rfl

end Programs

/-! ## The runs -/

theorem sound_start (issuer : Issuer) : Sound issuer {} [] where
  belong := ⟨fun _ => SessionStore.belongs_empty, fun s hs => by cases hs⟩
  out := ⟨fun _ n hn => (List.not_mem_nil hn).elim, fun _ n hn => (List.not_mem_nil hn).elim⟩
  noFile _ _ := rfl
  notOpen _ _ := rfl
  memoryBegun _ n hn := by cases hn
  fileBegun s hs := by cases hs
  storedBegun n hn := by cases hn
  endedBegun _ n hn := by cases hn
  fits op hop := by cases hop

/-- **Stored tokens belong to the stored user, and no late refresh undoes a logout**, in every state of every run whose
steps all end in time. -/
theorem tokens_run (issuer : Issuer) {q : State}
    {ls : List (Pool.Label Event (Option Answer))}
    (hm : Runs.Meets (tasks issuer).step (Pool.Moves (Tasks.Orderly (rules issuer))) ⟨{}, []⟩ ls)
    (hr : Runs.run (tasks issuer).step ⟨{}, []⟩ ls = some q) :
    q.shared.TokensBelong issuer ∧ q.shared.StaysLoggedOut issuer := by
  have hsound : Sound issuer q.shared (Task.labels q.threads) := by
    refine Tasks.holds_run (R := rules issuer) (fun d o o' hp h => ?_) (fun x d o h _ => ?_) (sound_start issuer) hm hr
    · exact { h with fits := fun op hop => h.fits op (hp.mem_iff.2 hop) }
    · exact keeps_program x _ d o h fun _ _ _ h => h
  exact ⟨hsound.belong, hsound.out⟩

/-! ## A run that is not in time -/

section Sample

theorem strokes {c : Char} (hc : ('-' : Char) ≠ c) (k : ℕ) (rest : Text) :
    (List.replicate k c ++ '-' :: rest).takeWhile (· = c) = List.replicate k c ∧
      ((List.replicate k c ++ '-' :: rest).dropWhile (· = c)).drop 1 = rest := by
  induction k with
  | zero => simp [hc]
  | succ k ih => simpa [List.replicate_succ] using ih

def sampleToken (kind : Char) (g : Grant) (serial : ℕ) : Text :=
  kind :: (List.replicate g.login '+' ++ '-' :: (List.replicate serial '*' ++ '-' :: g.userId))

def sampleGrant (token : Text) : Option Grant :=
  let numbers := token.drop 1
  let serial := (numbers.dropWhile (· = '+')).drop 1
  some ⟨(serial.dropWhile (· = '*')).drop 1, (numbers.takeWhile (· = '+')).length⟩

theorem sampleGrant_sampleToken (kind : Char) (g : Grant) (serial : ℕ) :
    sampleGrant (sampleToken kind g serial) = some g := by
  have hlogin := strokes (c := '+') (by decide) g.login (List.replicate serial '*' ++ '-' :: g.userId)
  have hserial := strokes (c := '*') (by decide) serial g.userId
  unfold sampleGrant sampleToken
  simp only [List.drop_succ_cons, List.drop_zero, hlogin.1, hlogin.2, hserial.2, List.length_replicate]

def sampleIssuer : Issuer where
  pair g serial := ⟨sampleToken 'a' g serial, sampleToken 'r' g serial⟩
  grant := sampleGrant
  grant_accessToken := sampleGrant_sampleToken 'a'
  grant_refreshToken := sampleGrant_sampleToken 'r'

def go (i : ℕ) : Pool.Label Event (Option Answer) := .step i (some {})

def refreshing : List (Pool.Label Event (Option Answer)) :=
  [.start (.openStore 0), go 0, go 0, .start (.login 0 "ayse".toList 0), go 1, go 1, .start (.refresh 0 false), go 2,
    go 2, go 2, go 2, go 2]

def loggedOut : List (Pool.Label Event (Option Answer)) :=
  refreshing ++ [.start (.logout 0), go 3, go 3, go 3, go 3, go 3]

def answered : Pool.Label Event (Option Answer) := .step 2 (some { serial := 1 })

theorem late_pair : ∃ q : State, Runs.run (tasks sampleIssuer).step ⟨{}, []⟩
      (loggedOut ++ [.start (.login 0 "veli".toList 0), go 4, answered]) = some q ∧
    (q.shared.session 0).userId = some "veli".toList ∧
    ∃ t ∈ (q.shared.session 0).tokens, (sampleGrant t).map Grant.userId = some "ayse".toList := by
  refine Runs.exists_run _ _ (fun q : State => (q.shared.session 0).userId = some "veli".toList ∧
    ∃ t ∈ (q.shared.session 0).tokens, (sampleGrant t).map Grant.userId = some "ayse".toList) ?_
  decide +kernel

theorem late_write : ∃ q : State,
    Runs.run (tasks sampleIssuer).step ⟨{}, []⟩ (loggedOut ++ [answered, go 2]) = some q ∧
    0 ∈ q.shared.ended 0 ∧ 0 ∈ (q.shared.session 0).logins sampleIssuer := by
  refine Runs.exists_run _ _ (fun q : State => 0 ∈ q.shared.ended 0 ∧ 0 ∈ (q.shared.session 0).logins sampleIssuer) ?_
  decide +kernel

/-- A refresh that is not in time breaks both halves. -/
theorem late_refresh :
    (¬ ∀ (issuer : Issuer) (ls : List (Pool.Label Event (Option Answer)))
      (q : State),
      Runs.run (tasks issuer).step ⟨{}, []⟩ ls = some q → q.shared.TokensBelong issuer) ∧
    ¬ ∀ (issuer : Issuer) (ls : List (Pool.Label Event (Option Answer)))
      (q : State),
      Runs.run (tasks issuer).step ⟨{}, []⟩ ls = some q → q.shared.StaysLoggedOut issuer := by
  constructor
  · intro h
    obtain ⟨q, hr, hu, t, ht, hg⟩ := late_pair
    have hown := (h _ _ _ hr).memory 0 _ hu t ht
    have hne : some "ayse".toList ≠ some "veli".toList := by decide
    exact hne (hg.symm.trans hown)
  · intro h
    obtain ⟨q, hr, hended, hback⟩ := late_write
    exact (h _ _ _ hr).memory 0 0 hended hback

def inTime : List (Pool.Label Event (Option Answer)) :=
  refreshing ++ [answered, go 2, go 2, .start (.logout 0), go 3, go 3, go 3, go 3, go 3,
    .start (.login 0 "veli".toList 0), go 4, go 4]

theorem tokens_inTime : ∃ q : State,
    Runs.run (tasks sampleIssuer).step ⟨{}, []⟩ inTime = some q ∧
      (q.shared.TokensBelong sampleIssuer ∧ q.shared.StaysLoggedOut sampleIssuer) := by
  have hrun : ∃ q, Runs.run (tasks sampleIssuer).step ⟨{}, []⟩ inTime = some q ∧ True :=
    Runs.exists_run _ _ (fun _ : State => True) (by decide +kernel)
  obtain ⟨q, hr, -⟩ := hrun
  exact ⟨q, hr, tokens_run sampleIssuer (by decide +kernel) hr⟩

end Sample

end Session
end SecureChat
