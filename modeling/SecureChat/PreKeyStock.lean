import Mathlib.Data.List.Nodup
import SecureChat.PreKeyPending
import SecureChat.UploadSteps
/-!
# PreKeyStock — no uploaded key gets lost

Unless the account is replaced, the key of an upload is on its way into the pool, or in the pool, or was fetched, or the
upload was refused.  A key whose id the pool has already is the pool's own: the check for conflicts is made under the
lock, and a fetch only takes rows away.
-/
namespace SecureChat
namespace PreKeys

variable {ι κ : Type}

def keyIds (rows : List (Tagged (OneTimeKey ι κ))) : List ι := rows.map fun r => r.value.keyId

theorem mem_keyIds {id : ι} {rows : List (Tagged (OneTimeKey ι κ))} :
    id ∈ keyIds rows ↔ ∃ r ∈ rows, r.value.keyId = id :=
  List.mem_map

def Upload.Fits (pool : List (Tagged (OneTimeKey ι κ))) : Upload ι κ → Prop
  | .checking keys => (keys.map OneTimeKey.keyId).Nodup
  | .inserting rest rows => (keyIds rows ++ rest.map OneTimeKey.keyId).Nodup ∧
    (∀ r ∈ rows, r.value.keyId ∉ keyIds pool) ∧
    ∀ k ∈ rest, ∀ r ∈ pool, r.value.keyId = k.keyId → r.value.publicKey = k.publicKey
  | _ => True

theorem Upload.Fits.shrink {u : Upload ι κ} {pool pool' : List (Tagged (OneTimeKey ι κ))} (h : u.Fits pool)
    (hsub : ∀ r ∈ pool', r ∈ pool) : u.Fits pool' := by
  cases u with
  | inserting rest rows =>
    refine ⟨h.1, fun r hr hid => h.2.1 r hr ?_, fun k hk r hr => h.2.2 k hk r (hsub r hr)⟩
    obtain ⟨r', hr', he⟩ := mem_keyIds.1 hid
    exact mem_keyIds.2 ⟨r', hsub r' hr', he⟩
  | _ => exact h

theorem Upload.fits_of_not_holds {u : Upload ι κ} (h : u.holds = false) (pool : List (Tagged (OneTimeKey ι κ))) :
    u.Fits pool := by
  cases u with
  | checking | inserting => cases h
  | _ => trivial

namespace State

variable {s s' : State ι κ} {i : ℕ} {k : κ}

def fetched (s : State ι κ) : List κ := s.consumed.map fun r => r.value.publicKey

def Stocked (s : State ι κ) (k : κ) : Prop := k ∈ s.account.pool ∨ k ∈ s.fetched

/-- The key of an upload has come into the pool, or will, or the upload was refused. -/
def Reaches (s : State ι κ) (i : ℕ) (k : κ) : Prop :=
  k ∈ (s.uploads i).pending ∨ s.Stocked k ∨ (s.uploads i).rejected = true

theorem Reaches.stocked (h : s.Reaches i k) (hi : (s.uploads i).accepted = true) : s.Stocked k := by
  cases hu : s.uploads i with
  | done answer =>
    rw [Reaches, hu] at h
    rw [hu] at hi
    cases answer with
    | ok => exact (h.resolve_left List.not_mem_nil).resolve_right Bool.false_ne_true
    | _ => cases hi
  | _ =>
    rw [hu] at hi
    cases hi

/-- The rows of the pool have different ids, and the uploads know what they are. -/
structure Ordered (s : State ι κ) : Prop where
  ids : (keyIds s.account.oneTimeKeys).Nodup
  fits : ∀ i, (s.uploads i).Fits s.account.oneTimeKeys

structure Keeps (s s' : State ι κ) : Prop where
  ordered : s'.Ordered
  stocked : ∀ k, s.Stocked k → s'.Stocked k
  pending : ∀ i, ∀ k ∈ (s.uploads i).pending, s'.Reaches i k
  rejected : ∀ i, (s.uploads i).rejected = true → (s'.uploads i).rejected = true

theorem Keeps.reaches (h : Keeps s s') (hk : s.Reaches i k) : s'.Reaches i k := by
  rcases hk with hk | hk | hk
  · exact h.pending i k hk
  · exact .inr (.inl (h.stocked k hk))
  · exact .inr (.inr (h.rejected i hk))

theorem Ordered.keeps_upload (h : s.Ordered) {u : Upload ι κ} {a : Account ι κ} {l : Option ℕ}
    (hpool : a.oneTimeKeys = s.account.oneTimeKeys) (hfits : u.Fits s.account.oneTimeKeys)
    (hpending : ∀ k ∈ (s.uploads i).pending, k ∈ u.pending ∨ k ∈ s.account.pool ∨ u.rejected = true)
    (hrejected : (s.uploads i).rejected = true → u.rejected = true) :
    Keeps s { s.setUpload i u with account := a, lock := l } := by
  have hsame : a.pool = s.account.pool := by rw [Account.pool, hpool, Account.pool]
  have hstocked : ∀ k, s.Stocked k → ({ s.setUpload i u with account := a, lock := l } : State ι κ).Stocked k :=
    fun k hk => hk.imp_left fun hk => (by rw [hsame]; exact hk)
  refine ⟨⟨by rw [hpool]; exact h.ids, fun j => ?_⟩, hstocked, fun j k hk => ?_, fun j hj => ?_⟩
  · show (Function.update s.uploads i u j).Fits a.oneTimeKeys
    rw [hpool]
    by_cases hji : j = i
    · subst hji
      rw [Function.update_self]
      exact hfits
    · rw [Function.update_of_ne hji]
      exact h.fits j
  · show k ∈ (Function.update s.uploads i u j).pending ∨ _ ∨ (Function.update s.uploads i u j).rejected = true
    by_cases hji : j = i
    · subst hji
      rw [Function.update_self]
      exact (hpending k hk).imp_right fun hor => hor.imp_left fun hk => hstocked k (.inl hk)
    · rw [Function.update_of_ne hji]
      exact .inl hk
  · show (Function.update s.uploads i u j).rejected = true
    by_cases hji : j = i
    · subst hji
      rw [Function.update_self]
      exact hrejected hj
    · rw [Function.update_of_ne hji]
      exact hj

theorem Ordered.keeps_commit (h : s.Ordered) (hv : s.Inv) {rows : List (Tagged (OneTimeKey ι κ))}
    (hu : s.uploads i = .inserting [] rows) :
    Keeps s { s.setUpload i (.done .ok) with
      account := { s.account with oneTimeKeys := s.account.oneTimeKeys ++ rows }
      lock := none } := by
  have hfits := h.fits i
  rw [hu] at hfits
  obtain ⟨hnodup, hnew, -⟩ := hfits
  rw [List.map_nil, List.append_nil] at hnodup
  have hlock : s.lock = some i := hv.locked i (by rw [hu]; rfl)
  refine ⟨⟨?_, fun j => ?_⟩, fun k hk => ?_, fun j k hk => ?_, fun j hj => ?_⟩
  · show (keyIds (s.account.oneTimeKeys ++ rows)).Nodup
    rw [keyIds, List.map_append]
    refine List.Nodup.append h.ids hnodup fun id hid hrow => ?_
    obtain ⟨r, hr, rfl⟩ := mem_keyIds.1 hrow
    exact hnew r hr hid
  · show (Function.update s.uploads i (.done .ok) j).Fits _
    by_cases hji : j = i
    · subst hji
      rw [Function.update_self]
      trivial
    · rw [Function.update_of_ne hji]
      refine Upload.fits_of_not_holds (Bool.eq_false_iff.2 fun hj => hji ?_) _
      have hj' := hv.locked j hj
      rw [hlock, Option.some.injEq] at hj'
      exact hj'.symm
  · refine hk.imp_left fun hk => ?_
    show k ∈ (s.account.oneTimeKeys ++ rows).map _
    rw [List.map_append]
    exact List.mem_append_left _ hk
  · show k ∈ (Function.update s.uploads i (.done .ok) j).pending ∨ _ ∨ _
    by_cases hji : j = i
    · subst hji
      rw [hu] at hk
      refine .inr (.inl (.inl ?_))
      show k ∈ (s.account.oneTimeKeys ++ rows).map _
      rw [List.map_append]
      exact List.mem_append_right _ hk
    · rw [Function.update_of_ne hji]
      exact .inl hk
  · show (Function.update s.uploads i (.done .ok) j).rejected = true
    by_cases hji : j = i
    · subst hji
      rw [hu] at hj
      cases hj
    · rw [Function.update_of_ne hji]
      exact hj

theorem Ordered.keeps_refused (h : s.Ordered) {answer : Answer ι} (hne : answer ≠ .ok) (lock : Option ℕ) :
    Keeps s { s.setUpload i (.done answer) with account := s.account, lock := lock } := by
  have hrefused : (Upload.done answer : Upload ι κ).rejected = true := by
    cases answer with
    | ok => exact absurd rfl hne
    | _ => rfl
  exact h.keeps_upload rfl trivial (fun _ _ => .inr (.inr hrefused)) fun _ => hrefused

theorem Ordered.keeps_move (h : s.Ordered) {u v : Upload ι κ} {a : Account ι κ} {l : Option ℕ} (hv : s.uploads i = v)
    (hpool : a.oneTimeKeys = s.account.oneTimeKeys) (hfits : u.Fits s.account.oneTimeKeys)
    (hpending : ∀ k ∈ v.pending, k ∈ u.pending) (hrejected : v.rejected = false) :
    Keeps s { s.setUpload i u with account := a, lock := l } := by
  refine h.keeps_upload hpool hfits (fun k hk => .inl (hpending k (hv ▸ hk))) fun hr => ?_
  rw [hv, hrejected] at hr
  cases hr

section
variable [DecidableEq ι]

theorem Ordered.keeps_consume (h : s.Ordered) {row : Tagged (OneTimeKey ι κ)} (hrow : row ∈ s.account.oneTimeKeys)
    (fetches : ℕ → Fetch ι κ) :
    Keeps s { s with
      fetches := fetches
      account := { s.account with
        oneTimeKeys := s.account.oneTimeKeys.filter fun r => decide (r.value.keyId ≠ row.value.keyId) }
      consumed := row :: s.consumed } := by
  have hsub : ∀ r ∈ s.account.oneTimeKeys.filter (fun r => decide (r.value.keyId ≠ row.value.keyId)),
      r ∈ s.account.oneTimeKeys := fun r hr => (List.mem_filter.1 hr).1
  refine ⟨⟨(List.filter_sublist.map _).nodup h.ids, fun j => (h.fits j).shrink hsub⟩, fun k hk => ?_,
    fun j k hk => .inl hk, fun j hj => hj⟩
  rcases hk with hk | hk
  · obtain ⟨r, hr, rfl⟩ := List.mem_map.1 hk
    by_cases hid : r.value.keyId = row.value.keyId
    · have he : r = row := List.inj_on_of_nodup_map h.ids hr hrow hid
      exact .inr (List.mem_map.2 ⟨row, List.mem_cons_self, by rw [he]⟩)
    · exact .inl (List.mem_map.2 ⟨r, List.mem_filter.2 ⟨hr, decide_eq_true hid⟩, rfl⟩)
  · exact .inr (List.mem_map.2 (by
      obtain ⟨r, hr, he⟩ := List.mem_map.1 hk
      exact ⟨r, List.mem_cons_of_mem _ hr, he⟩))

theorem hasKeyId_iff {id : ι} {rows : List (Tagged (OneTimeKey ι κ))} :
    Account.hasKeyId id rows = true ↔ id ∈ keyIds rows := by
  rw [Account.hasKeyId, List.any_eq_true, mem_keyIds]
  simp only [decide_eq_true_eq]

theorem Ordered.keeps_skip (h : s.Ordered) {k : OneTimeKey ι κ} {rest : List (OneTimeKey ι κ)}
    {rows : List (Tagged (OneTimeKey ι κ))} (hu : s.uploads i = .inserting (k :: rest) rows)
    (hk : (Account.hasKeyId k.keyId s.account.oneTimeKeys || Account.hasKeyId k.keyId rows) = true) :
    Keeps s (s.setUpload i (.inserting rest rows)) := by
  have hfits := h.fits i
  rw [hu] at hfits
  obtain ⟨hnodup, hnew, hagree⟩ := hfits
  rw [List.map_cons] at hnodup
  have hrows : k.keyId ∉ keyIds rows := fun hk => (List.nodup_append.1 hnodup).2.2 _ hk _ List.mem_cons_self rfl
  simp only [Bool.or_eq_true, hasKeyId_iff, hrows, or_false] at hk
  obtain ⟨r, hr, hid⟩ := mem_keyIds.1 hk
  have hkey : k.publicKey ∈ s.account.pool :=
    List.mem_map.2 ⟨r, hr, hagree k List.mem_cons_self r hr hid⟩
  refine h.keeps_upload (a := s.account) (l := s.lock) rfl ⟨?_, hnew,
    fun x hx => hagree x (List.mem_cons_of_mem _ hx)⟩ (fun x hx => ?_) fun hr => ?_
  · exact hnodup.sublist ((List.sublist_cons_self _ _).append_left _)
  · rw [hu] at hx
    rcases List.mem_append.1 hx with hx | hx
    · rcases List.mem_cons.1 hx with rfl | hx
      · exact .inr (.inl hkey)
      · exact .inl (List.mem_append_left _ hx)
    · exact .inl (List.mem_append_right _ hx)
  · rw [hu] at hr
    cases hr

theorem Ordered.keeps_insert (h : s.Ordered) {k : OneTimeKey ι κ} {rest : List (OneTimeKey ι κ)}
    {rows : List (Tagged (OneTimeKey ι κ))} (hu : s.uploads i = .inserting (k :: rest) rows)
    (hk : (Account.hasKeyId k.keyId s.account.oneTimeKeys || Account.hasKeyId k.keyId rows) = false) :
    Keeps s (s.setUpload i (.inserting rest (rows ++ [⟨k, s.account.generation⟩]))) := by
  have hfits := h.fits i
  rw [hu] at hfits
  obtain ⟨hnodup, hnew, hagree⟩ := hfits
  rw [List.map_cons] at hnodup
  have hpool : k.keyId ∉ keyIds s.account.oneTimeKeys := by
    rw [← hasKeyId_iff, (Bool.or_eq_false_iff.1 hk).1]
    nofun
  refine h.keeps_upload (a := s.account) (l := s.lock) rfl ⟨?_, fun r hr => ?_,
    fun x hx => hagree x (List.mem_cons_of_mem _ hx)⟩ (fun x hx => .inl ?_) fun hr => ?_
  · rw [keyIds, List.map_append, List.append_assoc]
    exact hnodup
  · rcases List.mem_append.1 hr with hr | hr
    · exact hnew r hr
    · rw [List.mem_singleton.1 hr]
      exact hpool
  · rw [hu] at hx
    show x ∈ rest.map OneTimeKey.publicKey ++ (rows ++ [_]).map _
    rw [List.map_append]
    rcases List.mem_append.1 hx with hx | hx
    · rcases List.mem_cons.1 hx with rfl | hx
      · exact List.mem_append_right _ (List.mem_append_right _ List.mem_cons_self)
      · exact List.mem_append_left _ hx
    · exact List.mem_append_right _ (List.mem_append_left _ hx)
  · rw [hu] at hr
    cases hr

variable [DecidableEq κ] {F : Format ι κ}

theorem agrees_of_conflict {keys : List (OneTimeKey ι κ)} {a : Account ι κ} (h : a.conflict keys = none)
    {k : OneTimeKey ι κ} (hk : k ∈ keys) {r : Tagged (OneTimeKey ι κ)} (hr : r ∈ a.oneTimeKeys)
    (hid : r.value.keyId = k.keyId) : r.value.publicKey = k.publicKey := by
  rw [Account.conflict, Option.map_eq_none_iff, List.find?_eq_none] at h
  by_contra hne
  refine h r hr (List.any_eq_true.2 ⟨k, hk, ?_⟩)
  rw [Bool.and_eq_true, decide_eq_true_eq, decide_eq_true_eq]
  exact ⟨hid.symm, fun he => hne he.symm⟩

theorem keeps_advance (h : s.Ordered) (hv : s.Inv) {u : Upload ι κ} {a : Account ι κ} {l : Option ℕ}
    (hadv : Advance F s i u a l) : Keeps s { s.setUpload i u with account := a, lock := l } := by
  cases hadv with
  | full hu => exact h.keeps_refused (fun he => (by cases he)) _
  | counted hu => exact h.keeps_move hu rfl trivial (fun _ => id) rfl
  | identityRefused hu hne => exact h.keeps_refused hne _
  | identified hu => exact h.keeps_move hu rfl trivial (fun _ => id) rfl
  | noFallback hu => exact h.keeps_move hu rfl trivial (fun _ => id) rfl
  | fallbackRefused hu _ hne => exact h.keeps_refused hne _
  | fallbackWritten hu => exact h.keeps_move hu rfl trivial (fun _ => id) rfl
  | noKeys hu => exact h.keeps_move hu rfl trivial (fun _ hk => (by cases hk)) rfl
  | malformed hu => exact h.keeps_refused (fun he => (by cases he)) _
  | keysRefused hu => exact h.keeps_refused (fun he => (by cases he)) _
  | locked hu _ hids => exact h.keeps_move hu rfl hids (fun _ => id) rfl
  | conflict hu => exact h.keeps_refused (fun he => (by cases he)) _
  | @unconflicted keys hu hc =>
    have hfits := h.fits i
    rw [hu] at hfits
    refine h.keeps_move hu rfl ⟨?_, fun r hr => (by cases hr), fun k hk r hr => agrees_of_conflict hc hk hr⟩
      (fun k hk => ?_) rfl
    · exact hfits
    · exact List.mem_append_left _ hk
  | skipped hu hk => exact h.keeps_skip hu hk
  | inserted hu hk => exact h.keeps_insert hu hk
  | committed hu => exact h.keeps_commit hv hu

theorem reaches_upload {r : PreKeyUploadRequest ι κ} {epoch : ℕ} (hs : step F s (.upload i r epoch) = some s') :
    ∀ k ∈ r.keys, s'.Reaches i k := by
  intro k hk
  simp only [step] at hs
  split at hs
  · cases hs
    have hself : ∀ u : Upload ι κ, (s.setUpload i u).uploads i = u := fun u => Function.update_self ..
    rw [Reaches, hself]
    split
    · exact .inl hk
    · exact .inr (.inr rfl)
  · cases hs

theorem keeps_step {e : Event ι κ} (h : s.Ordered) (hv : s.Inv) (he : ∀ key, e ≠ .replace key)
    (hs : step F s e = some s') : Keeps s s' := by
  have hfetch : ∀ (j : ℕ) (f : Fetch ι κ), Keeps s (s.setFetch j f) := fun j f =>
    ⟨⟨h.ids, h.fits⟩, fun _ hk => hk, fun _ _ hk => .inl hk, fun _ hr => hr⟩
  cases step_cases hs with
  | upload hu =>
    split
    · exact h.keeps_move (a := s.account) (l := s.lock) hu rfl trivial (fun _ hk => (by cases hk)) rfl
    · exact h.keeps_refused (fun he => (by cases he)) s.lock
  | advance hadv | miscount _ hadv => exact keeps_advance h hv hadv
  | abort => exact h.keeps_refused (fun he => (by cases he)) _
  | fetch | fail => exact hfetch _ _
  | read hread =>
    cases hread with
    | identity | nobody | empty | nothing | bundle => exact hfetch _ _
    | consume ik sk row hj hr => exact h.keeps_consume (mem_of_nextKey hr) _
  | replace => exact absurd rfl (he _)
  | rotate => exact ⟨⟨h.ids, h.fits⟩, fun _ hk => hk, fun _ _ hk => .inl hk, fun _ hr => hr⟩

end

theorem ordered_init : (init : State ι κ).Ordered := ⟨List.nodup_nil, fun _ => trivial⟩

end State
end PreKeys
end SecureChat
