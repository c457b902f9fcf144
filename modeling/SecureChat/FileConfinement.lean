import SecureChat.FileTransferManager
/-!
# FileConfinement — which paths handling a file touches

The manager has three directories for what comes in.  File names are sanitized before they become part of a path, and
an accepted pointer is kept under a digest; a transfer id goes into paths as the peer sent it.
-/
namespace SecureChat
namespace FileTransfer

open PosixPath Io

namespace Io

variable {α : Type} {P : Action → Prop} {Q : α → Prop}

theorem keeps_act {a : Action} (h : P a) : (act a).Keeps P fun _ => True := ⟨h, fun _ _ => trivial, trivial⟩

theorem keeps_ask (hP : P .ask) {f : Answer → α} (hQ : ∀ i, Q (f i)) : (ask f).Keeps P Q :=
  ⟨hP, fun i _ => hQ i, trivial⟩

theorem keeps_asked {β : Type} (hP : P .ask) (f : Answer → β) : (ask f).Keeps P fun _ => True :=
    keeps_ask hP fun _ => trivial

theorem keeps_wait (hP : P .ask) : wait.Keeps P fun _ => True := keeps_ask hP fun _ => trivial

theorem keeps_fail : (fail : Io α).Keeps P Q := trivial

theorem keeps_orElse {p h : Io α} (hp : p.Keeps P Q) (hh : h.Keeps P Q) : (orElse p h).Keeps P Q := by
  refine hp.attempt.bind fun r hr => ?_
  cases r with
  | ok a => exact hr a rfl
  | error e => exact hh

theorem keeps_finallyDo {p : Io α} {f : Io Unit} (hp : p.Keeps P Q) (hf : f.Keeps P fun _ => True) :
    (finallyDo p f).Keeps P Q := by
  refine hp.attempt.bind fun r hr => hf.bind fun _ _ => ?_
  cases r with
  | ok a => exact hr a rfl
  | error e => trivial

theorem keeps_deleteIfThere (hP : P .ask) {entity : String} (h : P (.delete entity)) :
    (deleteIfThere entity).Keeps P fun _ => True := by
  refine (keeps_asked hP _).bind fun b _ => ?_
  split
  · exact keeps_act h
  · trivial

theorem keeps_writeBeside (hP : P .ask) {output suffix : String} (hw : P (.write (output ++ suffix)))
    (hd : P (.delete (output ++ suffix))) (hr : P (.rename (output ++ suffix) output)) :
    (writeBeside output suffix).Keeps P fun _ => True := by
  refine (keeps_act hw).bind fun _ _ => (keeps_orElse (keeps_wait hP) ?_).bind fun _ _ =>
    (keeps_wait hP).bind fun _ _ => keeps_act hr
  exact (keeps_wait hP).bind fun _ _ => (keeps_deleteIfThere hP hd).bind fun _ _ => trivial

end Io

structure Inert (text : String) : Prop where
  no_slash : ¬ '/' ∈ text.toList
  no_nul : ¬ '\x00' ∈ text.toList

theorem Inert.append {a b : String} (ha : Inert a) (hb : Inert b) : Inert (a ++ b) where
  no_slash h := by
    rw [String.toList_append] at h
    exact (List.mem_append.1 h).elim ha.no_slash hb.no_slash
  no_nul h := by
    rw [String.toList_append] at h
    exact (List.mem_append.1 h).elim ha.no_nul hb.no_nul

theorem Inert.plain {a : String} (h : Inert a) (hlen : 3 ≤ a.toList.length) : Plain a.toList where
  ne_nil he := by rw [he] at hlen; exact absurd hlen (by decide)
  ne_dot he := by rw [he] at hlen; exact absurd hlen (by decide)
  ne_dotDot he := by rw [he] at hlen; exact absurd hlen (by decide)
  no_slash := h.no_slash
  no_nul := h.no_nul

theorem Inert.plain_of_mem {a : String} (h : Inert a) (hmem : '_' ∈ a.toList) : Plain a.toList where
  ne_nil he := by rw [he] at hmem; exact absurd hmem (by decide)
  ne_dot he := by rw [he] at hmem; exact absurd hmem (by decide)
  ne_dotDot he := by rw [he] at hmem; exact absurd hmem (by decide)
  no_slash := h.no_slash
  no_nul := h.no_nul

theorem inert_toString_nat (n : ℕ) : Inert (toString n) := by
  have hdigit : ∀ c ∈ (toString n).toList, c.isDigit := by
    intro c hc
    rw [show (toString n).toList = Nat.toDigits 10 n by simp] at hc
    exact Nat.isDigit_of_mem_toDigits (by decide) (by decide) hc
  exact ⟨fun h => absurd (hdigit _ h) (by decide), fun h => absurd (hdigit _ h) (by decide)⟩

theorem inert_toString (n : ℤ) : Inert (toString n) := by
  cases n with
  | ofNat n => exact inert_toString_nat n
  | negSucc n => exact Inert.append ⟨by decide, by decide⟩ (inert_toString_nat (n + 1))

theorem mem_replaceDots {c : Char} : ∀ {cs : List Char}, c ∈ replaceDots cs → c ∈ cs ∨ c = '_' := by
  intro cs
  fun_induction replaceDots cs with
  | case1 cs ih => intro h; simp only [List.mem_cons] at h ⊢; tauto
  | case2 d cs hd ih => intro h; simp only [List.mem_cons] at h ⊢; tauto
  | case3 => exact .inl

theorem mem_takeUnits {c : Char} : ∀ {n : ℕ} {cs : List Char}, c ∈ takeUnits n cs → c ∈ cs ∨ c = '\uFFFD' := by
  intro n cs
  fun_induction takeUnits n cs with
  | case1 => intro h; cases h
  | case2 => intro h; cases h
  | case3 n d cs hd ih => intro h; simp only [List.mem_cons] at h ⊢; tauto
  | case4 d cs hd => intro h; simp only [List.mem_cons, List.not_mem_nil, or_false] at h; exact .inr h
  | case5 d cs n hd ih => intro h; simp only [List.mem_cons] at h ⊢; tauto

theorem mem_shorten {c : Char} {safe : List Char} (h : c ∈ shorten safe) : c ∈ safe ∨ c = '\uFFFD' := by
  unfold shorten at h
  split at h
  · exact mem_takeUnits h
  · exact .inl h

theorem mem_replaceUnsafe {u : Unicode} {c : Char} {base : List Char} (h : c ∈ replaceUnsafe u base) :
    u.letterOrNumber c = true ∨ c ∈ ['.', '_', '-'] := by
  rcases mem_replaceDots h with h | rfl
  · obtain ⟨d, -, rfl⟩ := List.mem_map.1 h
    split
    · assumption
    · exact .inr (by decide)
  · exact .inr (by decide)

theorem inert_sanitizeFileName (u : Unicode) (value : String) : Inert (sanitizeFileName u value) := by
  have hname : ∀ c ∈ (sanitizeFileName u value).toList,
      u.letterOrNumber c = true ∨ c ∈ ['.', '_', '-', '\uFFFD'] ∨ c ∈ "dosya".toList := by
    intro c hc
    unfold sanitizeFileName at hc
    simp only at hc
    split at hc
    · exact .inr (.inr hc)
    · rw [String.toList_ofList] at hc
      rcases mem_shorten hc with hc | rfl
      · rcases mem_replaceUnsafe hc with hc | hc
        · exact .inl hc
        · exact .inr (.inl (List.mem_append_left ['\uFFFD'] hc))
      · exact .inr (.inl (by decide))
  constructor
  · intro h
    rcases hname _ h with h | h
    · exact absurd (u.slash.symm.trans h) (by decide)
    · exact absurd h (by decide)
  · intro h
    rcases hname _ h with h | h
    · exact absurd (u.nul.symm.trans h) (by decide)
    · exact absurd h (by decide)

namespace FileTransferManager

variable (m : FileTransferManager)

def directories : List String := [m.incomingParts, m.incomingBlobs, m.receivedFiles]

def Inside (p : Place) : Prop := ∃ d ∈ m.directories, Below (resolve d) p

def leads : List Place := m.directories.flatMap trail

instance (p : Place) : Decidable (m.Inside p) := inferInstanceAs (Decidable (∃ d ∈ m.directories, _))

/-- What an action makes, writes, renames or deletes lies strictly below one of the three directories; making a
directory may also make these and what leads to them. -/
def Confined : Action → Prop
  | .create d => ∀ p ∈ trail d, p ∈ m.leads ∨ m.Inside p
  | .write f => m.Inside (resolve f)
  | .rename f g => m.Inside (resolve f) ∧ m.Inside (resolve g)
  | .delete e => m.Inside (resolve e)
  | .ask => True

/-- The part directory of an id is strictly below one of the three directories, and so is every place its names lead
through, unless that is on the way to them. -/
def PartStays (transferId : String) : Prop :=
  (∀ ns, ns <+: names transferId →
    follow (resolve m.incomingParts) ns ∈ m.leads ∨ m.Inside (follow (resolve m.incomingParts) ns)) ∧
    m.Inside (follow (resolve m.incomingParts) (names transferId))

def BlobStays (transferId : String) : Prop :=
  m.Inside (follow (resolve m.incomingBlobs) (names (transferId ++ ".pending")))

/-- The signal is turned down before its id is used, or its id stays. -/
def Admits (signal : FileTransferSignal) : Prop :=
  m.closing = true ∨
    if signal.isBlob then
      m.attachments = false ∨ signal.totalChunks ≠ 1 ∨ signal.chunkIndex ≠ 0 ∨ m.BlobStays signal.id
    else m.Rejects signal ∨ m.PartStays signal.id

variable {m}

theorem child_no_nul {a b : String} (ha : ¬ '\x00' ∈ a.toList) (hb : ¬ '\x00' ∈ b.toList) :
    ¬ '\x00' ∈ (child a b).toList := by
  rw [toList_child]
  intro h
  rcases List.mem_append.1 h with h | h
  · exact ha h
  · rcases List.mem_cons.1 h with h | h
    · exact absurd h (by decide)
    · exact hb h

theorem directory_no_nul {d : String} (hd : d ∈ m.directories) : ¬ '\x00' ∈ d.toList := by
  have hroot := m.filesDirectory.no_nul
  simp only [directories, List.mem_cons, List.not_mem_nil, or_false] at hd
  rcases hd with rfl | rfl | rfl <;> exact child_no_nul hroot (by decide)

theorem inside_child {d name : String} (hd : d ∈ m.directories) (hname : Plain name.toList) :
    m.Inside (resolve (child d name)) := by
  rw [resolve_child_plain (directory_no_nul hd) hname]
  exact ⟨d, hd, below_snoc.2 (List.prefix_refl _)⟩

theorem parts_mem (m : FileTransferManager) : m.incomingParts ∈ m.directories := List.mem_cons_self

theorem blobs_mem (m : FileTransferManager) : m.incomingBlobs ∈ m.directories :=
    List.mem_cons_of_mem _ List.mem_cons_self

theorem received_mem (m : FileTransferManager) : m.receivedFiles ∈ m.directories :=
  List.mem_cons_of_mem _ (List.mem_cons_of_mem _ List.mem_cons_self)

theorem confined_directory {d : String} (hd : d ∈ m.directories) : m.Confined (.create d) :=
  fun _ hp => .inl (List.mem_flatMap.2 ⟨d, hd, hp⟩)

theorem Inside.child {d name : String} (h : m.Inside (resolve d)) (hname : Plain name.toList) :
    m.Inside (resolve (PosixPath.child d name)) := by
  by_cases hd : '\x00' ∈ d.toList
  · have hsame : resolve (PosixPath.child d name) = resolve d := by
      rw [resolve, PosixPath.child, String.append_assoc, names_append_of_nul hd, resolve]
    exact hsame ▸ h
  · rw [resolve_child_plain hd hname]
    obtain ⟨b, hb, hbelow⟩ := h
    exact ⟨b, hb, hbelow.append _⟩

theorem blob_inside {transferId suffix : String} (h : m.BlobStays transferId) (hs : Inert suffix)
    (hlen : 3 ≤ suffix.toList.length) :
      m.Inside (resolve (PosixPath.child m.incomingBlobs (transferId ++ suffix))) := by
  rw [resolve_child (directory_no_nul (blobs_mem m))]
  by_cases hid : '\x00' ∈ transferId.toList
  · rw [names_append_of_nul hid, ← names_append_of_nul (s := ".pending") hid]
    exact h
  · obtain ⟨ns, n, hfollow⟩ := follow_names_append (resolve m.incomingBlobs) hid
    obtain ⟨d, hd, hbelow⟩ := h
    rw [hfollow ".pending" (by decide) (by decide) (by decide), below_snoc] at hbelow
    rw [hfollow suffix hs.no_slash hs.no_nul hlen]
    exact ⟨d, hd, below_snoc.2 hbelow⟩

theorem output_inside {fileName suffix : String} (hname : Inert fileName) (hs : Inert suffix) (now : ℤ) :
    m.Inside (resolve (m.outputPath fileName now ++ suffix)) := by
  have hassoc : m.outputPath fileName now ++ suffix =
      PosixPath.child m.receivedFiles (toString now ++ "_" ++ fileName ++ suffix) := String.append_assoc
  rw [hassoc]
  have hbar : Inert "_" := ⟨by decide, by decide⟩
  have hinert := (((inert_toString now).append hbar).append hname).append hs
  refine inside_child (received_mem m) (hinert.plain_of_mem ?_)
  simp only [String.toList_append, List.mem_append]
  exact .inl (.inl (.inr (by decide)))

theorem output_confined {fileName : String} (hname : Inert fileName) (now : ℤ) :
    m.Inside (resolve (m.outputPath fileName now)) := by
  have h : m.Inside (resolve (m.outputPath fileName now ++ "")) := output_inside hname ⟨by decide, by decide⟩ now
  rwa [String.append_empty] at h

theorem keeps_write {f : String} (h : m.Inside (resolve f)) :
    (act (.write f)).Keeps m.Confined fun _ => True := keeps_act h

theorem keeps_delete {e : String} (h : m.Inside (resolve e)) : (act (.delete e)).Keeps m.Confined fun _ => True :=
  keeps_act h

theorem keeps_writeOutput {fileName suffix : String} (hname : Inert fileName) (hs : Inert suffix) (now : ℤ) :
    (writeBeside (m.outputPath fileName now) suffix).Keeps m.Confined fun _ => True :=
  keeps_writeBeside trivial (output_inside hname hs now) (output_inside hname hs now)
    ⟨output_inside hname hs now, output_confined hname now⟩

theorem keeps_giveUp {α : Type} {Q : Option α → Prop} {partDirectory : String}
    (hdir : m.Inside (resolve partDirectory)) (hQ : Q none) : (giveUp partDirectory : Io (Option α)).Keeps
      m.Confined Q :=
  (keeps_delete hdir).bind fun _ _ => hQ

theorem keeps_countParts : ∀ (n completed : ℕ) (receivedBytes : ℤ),
    (countParts n completed receivedBytes).Keeps m.Confined fun _ => True
  | 0, _, _ => trivial
  | n + 1, completed, receivedBytes => by
    refine (keeps_asked trivial _).bind fun there _ => ?_
    split
    · exact (keeps_asked trivial _).bind fun length _ => keeps_countParts n _ _
    · exact keeps_countParts n completed receivedBytes

theorem keeps_loadMetadata {signal : FileTransferSignal} {partDirectory : String}
    (hdir : m.Inside (resolve partDirectory)) : (m.loadMetadata signal partDirectory).Keeps m.Confined fun r =>
      ∀ stored, r = some stored → Inert stored.fileName := by
  have hwrite : m.Inside (resolve (PosixPath.child partDirectory "metadata.secure")) :=
    hdir.child (Inert.plain ⟨by decide, by decide⟩ (by decide))
  have hexpected : Inert (TransferMetadata.fromSignal m.unicode signal).fileName := inert_sanitizeFileName _ _
  refine (keeps_asked trivial _).bind fun there _ => ?_
  split
  · refine (keeps_asked trivial _).bind fun stored _ => ?_
    split
    · rename_i hmatches
      refine (keeps_write hwrite).bind fun _ _ stored' he => ?_
      -- the stored name is the sanitized one of the signal
      cases he
      exact hmatches.2.1 ▸ hexpected
    · exact (keeps_delete hdir).bind fun _ _ _ he => by cases he
  · refine (keeps_write hwrite).bind fun _ _ stored' he => ?_
    cases he
    exact hexpected

theorem keeps_storeReceived {signal : FileTransferSignal} {partDirectory fileName : String} {fileSize : ℤ}
    {originalMessageId groupId : Option String} (hdir : m.Inside (resolve partDirectory)) (hname : Inert fileName) :
    (m.storeReceived signal partDirectory fileName fileSize originalMessageId groupId).Keeps m.Confined
      fun _ => True := by
  refine (keeps_act (confined_directory (received_mem m))).bind fun _ _ => (keeps_asked trivial _).bind fun now _ => ?_
  split
  · refine (keeps_writeOutput hname ⟨by decide, by decide⟩ now).bind fun _ _ => ?_
    exact (keeps_delete hdir).bind fun _ _ => trivial
  · refine (keeps_write (output_confined hname now)).bind fun _ _ => (keeps_wait trivial).bind fun _ _ => ?_
    exact (keeps_delete hdir).bind fun _ _ => trivial

theorem keeps_storePrivate {signal : FileTransferSignal} {partDirectory : String} {groupId : Option String}
    {receivedBytes : ℤ} (hdir : m.Inside (resolve partDirectory)) :
    (m.storePrivate signal partDirectory groupId receivedBytes).Keeps m.Confined fun _ => True := by
  refine (keeps_asked trivial _).bind fun json _ => ?_
  simp only
  split
  · exact keeps_giveUp hdir trivial
  · exact keeps_storeReceived hdir (inert_sanitizeFileName _ _)

theorem keeps_finishParts {signal : FileTransferSignal} {partDirectory : String} {stored : TransferMetadata}
    {privateGroupV3 : Bool} {groupId : Option String} {receivedBytes : ℤ} (hdir : m.Inside (resolve partDirectory))
    (hname : Inert stored.fileName) :
    (m.finishParts signal partDirectory stored privateGroupV3 groupId receivedBytes).Keeps m.Confined
      fun _ => True := by
  unfold finishParts
  split
  · split
    · exact keeps_giveUp hdir trivial
    · split
      · refine (keeps_asked trivial _).bind fun routed _ => ?_
        split
        · exact keeps_giveUp hdir trivial
        · exact keeps_storePrivate hdir
      · exact keeps_storePrivate hdir
  · split
    · exact keeps_giveUp hdir trivial
    · simp only
      split
      · exact (keeps_wait trivial).bind fun _ _ => keeps_storeReceived hdir hname
      · exact keeps_storeReceived hdir hname

theorem keeps_receiveContent {signal : FileTransferSignal} {partDirectory : String} {stored : TransferMetadata}
    (hdir : m.Inside (resolve partDirectory)) (hname : Inert stored.fileName) :
    (m.receiveContent signal partDirectory stored).Keeps m.Confined fun _ => True := by
  have hgroup : ∀ v2 v3, (resolveGroup signal v2 v3).Keeps m.Confined fun _ => True := by
    intro v2 v3
    unfold resolveGroup
    split
    · exact keeps_asked trivial _
    · split
      · exact keeps_asked trivial _
      · trivial
  have hpart : m.Inside (resolve (PosixPath.child partDirectory (toString signal.chunkIndex ++ ".part"))) := by
    have hsuffix : Inert ".part" := ⟨by decide, by decide⟩
    refine hdir.child (((inert_toString _).append hsuffix).plain ?_)
    rw [String.toList_append, List.length_append]
    exact Nat.le_add_left_of_le (by decide)
  refine (hgroup _ _).bind fun groupId _ => ?_
  split
  · exact keeps_giveUp hdir trivial
  · refine (keeps_asked trivial _).bind fun bytes _ => ?_
    split
    · exact keeps_giveUp hdir trivial
    · refine (keeps_write hpart).bind fun _ _ => (keeps_countParts _ _ _).bind fun parts _ =>
        (keeps_asked trivial _).bind fun disposed _ => ?_
      split
      · trivial
      · exact keeps_finishParts hdir hname

theorem keeps_download {target : String} (hp : m.Inside (resolve (target ++ ".download")))
    (ht : m.Inside (resolve target)) :
    (download target).Keeps m.Confined fun _ => True := by
  have hsend : (send target).Keeps m.Confined fun _ => True := by
    refine (keeps_wait trivial).bind fun _ _ => (keeps_write hp).bind fun _ _ =>
      (keeps_orElse (keeps_wait trivial) ?_).bind
      fun _ _ => keeps_act (P := m.Confined) ⟨hp, ht⟩
    exact (keeps_wait trivial).bind fun _ _ => (keeps_deleteIfThere (P := m.Confined) trivial hp).bind
      fun _ _ => trivial
  refine (keeps_wait trivial).bind fun _ _ => keeps_orElse hsend ((keeps_asked trivial _).bind fun unauthorized _ => ?_)
  split
  · exact (keeps_wait trivial).bind fun _ _ => hsend
  · trivial

theorem keeps_fetch {sealedFile : String} (hp : m.Inside (resolve (sealedFile ++ ".download")))
    (hs : m.Inside (resolve sealedFile)) : ∀ (n : ℕ) (last : Fetch), (fetch sealedFile n last).Keeps
      m.Confined fun _ => True
  | 0, _ => trivial
  | n + 1, _ => by
    refine (keeps_wait trivial).bind fun _ _ => (keeps_asked trivial _).bind fun closing _ => ?_
    split
    · trivial
    · refine (keeps_download hp hs).attempt.bind fun r _ => ?_
      cases r with
      | ok a => trivial
      | error e =>
        refine (keeps_asked trivial _).bind fun notFound _ => ?_
        split
        · trivial
        · exact keeps_fetch hp hs n _

theorem keeps_completeBlob {transferId senderId : String} {groupId : Option String} {pointer : PointerJson}
    {sealedFile pending : String} (hp : m.Inside (resolve (sealedFile ++ ".download")))
      (hs : m.Inside (resolve sealedFile))
    (hpending : m.Inside (resolve pending)) :
    (m.completeBlob transferId senderId groupId pointer sealedFile pending).Keeps m.Confined fun _ => True := by
  have hname := inert_sanitizeFileName m.unicode pointer.manifest.name
  refine keeps_finallyDo ((keeps_fetch hp hs _ _).bind fun r _ => ?_) (keeps_deleteIfThere (P := m.Confined) trivial hs)
  cases r with
  | closed => trivial
  | failed notFound =>
    simp only
    split
    · exact (keeps_delete hpending).bind fun _ _ => trivial
    · trivial
  | fetched =>
    refine (keeps_asked trivial _).bind fun sealedLength _ => ?_
    split
    · trivial
    · refine (keeps_act (confined_directory (received_mem m))).bind fun _ _ => (keeps_asked trivial _).bind fun now _ =>
        (keeps_orElse (keeps_writeOutput hname ?_ now)
          ((keeps_deleteIfThere (P := m.Confined) trivial hpending).bind fun _ _ => keeps_fail)).bind fun _ _ =>
            (keeps_asked trivial _).bind fun plaintextLength _ => ?_
      · split <;> exact ⟨by decide, by decide⟩
      · split
        · exact (keeps_delete (output_confined hname now)).bind fun _ _ =>
            (keeps_delete hpending).bind fun _ _ => trivial
        · exact (keeps_delete hpending).bind fun _ _ => trivial

theorem BlobStays.files {transferId : String} (h : m.BlobStays transferId) :
    m.Inside (resolve (m.pendingPath transferId)) ∧ m.Inside (resolve (m.sealedPath transferId)) ∧
      m.Inside (resolve (m.sealedPath transferId ++ ".download")) := by
  refine ⟨blob_inside h ⟨by decide, by decide⟩ (by decide), blob_inside h ⟨by decide, by decide⟩ (by decide), ?_⟩
  have hassoc : m.sealedPath transferId ++ ".download" =
      PosixPath.child m.incomingBlobs (transferId ++ (".blob" ++ ".download")) := by
    simp only [sealedPath, PosixPath.child, String.append_assoc]
  exact hassoc ▸ blob_inside h ⟨by decide, by decide⟩ (by decide)

theorem keeps_reported : (orElse wait (pure ())).Keeps m.Confined fun _ => True :=
    keeps_orElse (keeps_wait trivial) trivial

theorem keeps_receiveBlob {signal : FileTransferSignal} {transferId : String} (h : m.BlobStays transferId) :
    (m.receiveBlob signal transferId).Keeps m.Confined fun _ => True := by
  obtain ⟨hpending, hsealed, hpartial⟩ := h.files
  have hgroup : (pointerGroup signal).Keeps m.Confined fun _ => True := by
    unfold pointerGroup
    split
    · exact keeps_asked trivial _
    · trivial
  unfold receiveBlob
  split
  · trivial
  · refine keeps_orElse ?_ (keeps_reported.bind fun _ _ => (keeps_wait trivial).bind fun _ _ => trivial)
    refine (keeps_act (confined_directory (blobs_mem m))).bind fun _ _ => hgroup.bind fun groupId _ => ?_
    refine (keeps_asked trivial _).bind fun pointer _ => (keeps_write hpending).bind fun _ _ => ?_
    exact keeps_completeBlob hpartial hsealed hpending

theorem keeps_downloadPending {transferId senderId : String} {groupId : Option String} {pointer : PointerJson}
    (h : m.BlobStays transferId) :
    (m.downloadPending transferId senderId groupId pointer (m.pendingPath transferId)).Keeps m.Confined
      fun _ => True := by
  obtain ⟨hpending, hsealed, hpartial⟩ := h.files
  refine (keeps_asked trivial _).bind fun closing _ => ?_
  split
  · trivial
  · exact keeps_orElse ((keeps_completeBlob hpartial hsealed hpending).bind fun _ _ => trivial) keeps_reported

theorem blobStays_of_plain {transferId : String} (h : Plain (transferId ++ ".pending").toList) :
    m.BlobStays transferId := by
  have hinside := inside_child (blobs_mem m) h
  rwa [resolve_child (directory_no_nul (blobs_mem m))] at hinside

theorem pointerTransferId_inert (senderId messageId : String) : Inert (pointerTransferId senderId messageId) := by
  refine Inert.append ⟨by decide, by decide⟩ ⟨fun h => ?_, fun h => ?_⟩ <;>
  · rw [String.toList_ofList] at h
    exact absurd (Sha256.mem_hex h) (by decide)

theorem plain_pending {transferId : String} (h : Inert transferId) : Plain (transferId ++ ".pending").toList := by
  refine (h.append ⟨by decide, by decide⟩).plain ?_
  rw [String.toList_append, List.length_append]
  exact Nat.le_add_left_of_le (by decide)

theorem keeps_acceptBlobPointer (senderId : String) (groupId : Option String) (payload : Option PointerJson) :
    (m.acceptBlobPointer senderId groupId payload).Keeps m.Confined fun _ => True := by
  unfold acceptBlobPointer
  split
  · trivial
  cases payload with
  | none => trivial
  | some pointer =>
    simp only
    cases pointer.manifest.messageId.map m.unicode.trim with
    | none => trivial
    | some messageId =>
      simp only
      split
      · trivial
      · have hstays : m.BlobStays (pointerTransferId senderId messageId) :=
          blobStays_of_plain (plain_pending (pointerTransferId_inert senderId messageId))
        refine (keeps_act (confined_directory (blobs_mem m))).bind fun _ _ => (keeps_asked trivial _).bind
          fun downloading _ => (keeps_asked trivial _).bind fun there _ => ?_
        split
        · exact (keeps_write hstays.files.1).bind fun _ _ => (keeps_downloadPending hstays).bind fun _ _ => trivial
        · exact (keeps_downloadPending hstays).bind fun _ _ => trivial

theorem keeps_retryPendingBlobs : ∀ entries : List Entry, (m.retryPendingBlobs entries).Keeps m.Confined fun _ => True
  | [] => trivial
  | entry :: entries => by
    refine (keeps_asked trivial _).bind fun closing _ => ?_
    split
    · trivial
    · refine (keeps_asked trivial _).bind fun receiving _ => ?_
      split
      · refine (keeps_orElse ?_ keeps_reported).bind fun _ _ => keeps_retryPendingBlobs entries
        exact (keeps_asked trivial _).bind fun pointer _ => (keeps_asked trivial _).bind fun senderId _ =>
          (keeps_asked trivial _).bind fun groupId _ => keeps_downloadPending (blobStays_of_plain entry.plain)
      · exact keeps_retryPendingBlobs entries

theorem partStays_iff {transferId : String} : m.PartStays transferId ↔
    m.Confined (.create (PosixPath.child m.incomingParts transferId)) ∧
      m.Inside (resolve (PosixPath.child m.incomingParts transferId)) := by
  have hnul := directory_no_nul (parts_mem m)
  rw [PartStays, resolve_child hnul]
  refine and_congr_left fun _ =>
    ⟨fun h p hp => ?_, fun h ns hns => h _ ((mem_trail_child hnul).2 (.inr ⟨ns, hns, rfl⟩))⟩
  rcases (mem_trail_child hnul).1 hp with hp | ⟨ns, hns, rfl⟩
  · exact confined_directory (parts_mem m) p hp
  · exact h ns hns

theorem keeps_receivePart {signal : FileTransferSignal} {transferId : String} (h : m.PartStays transferId) :
    (m.receivePart signal (PosixPath.child m.incomingParts transferId)).Keeps m.Confined fun _ => True := by
  obtain ⟨hcreate, hdir⟩ := partStays_iff.1 h
  refine (keeps_act hcreate).bind fun _ _ => (keeps_loadMetadata hdir).bind fun stored hstored => ?_
  cases stored with
  | none => trivial
  | some stored => exact keeps_receiveContent hdir (hstored stored rfl)

theorem keeps_receiveChunk {signal : FileTransferSignal} (h : m.Admits signal) :
    (m.receiveChunk signal).Keeps m.Confined fun _ => True := by
  unfold receiveChunk
  split
  · trivial
  rename_i hclosing
  have hid := h.resolve_left hclosing
  refine (keeps_wait trivial).bind fun _ _ => ?_
  unfold receiveChunkSerial
  split
  · rename_i hblob
    rw [if_pos hblob] at hid
    by_cases href : m.attachments = false ∨ signal.totalChunks ≠ 1 ∨ signal.chunkIndex ≠ 0
    · rw [receiveBlob, if_pos href]
      trivial
    · exact keeps_receiveBlob (by tauto)
  · rename_i hblob
    rw [if_neg hblob] at hid
    split
    · trivial
    · rename_i hrejects
      have hstays := hid.resolve_left hrejects
      refine keeps_finallyDo (keeps_orElse (keeps_receivePart hstays) ?_) (keeps_wait trivial)
      exact keeps_reported.bind fun _ _ =>
        (keeps_deleteIfThere (P := m.Confined) trivial (partStays_iff.1 hstays).2).bind fun _ _ => trivial

def yes : Answer := { (default : Answer) with flag := true }

theorem attempts_part {signal : FileTransferSignal} (hclosing : m.closing = false) (hblob : signal.isBlob = false)
    (hrejects : ¬ m.Rejects signal) :
    (m.receiveChunk signal).Attempts (.create (PosixPath.child m.incomingParts signal.id)) ∧
      (m.receiveChunk signal).Attempts (.delete (PosixPath.child m.incomingParts signal.id)) := by
  rw [receiveChunk, hclosing]
  simp only [receiveChunkSerial, hblob, if_neg hrejects, Bool.false_eq_true, if_false]
  exact ⟨.answered yes () .here, .answered yes () (.failed (.answered yes () (.answered yes () .here)))⟩

theorem attempts_blob {signal : FileTransferSignal} (hclosing : m.closing = false) (hblob : signal.isBlob = true)
    (hrefused : ¬ (m.attachments = false ∨ signal.totalChunks ≠ 1 ∨ signal.chunkIndex ≠ 0)) :
    (m.receiveChunk signal).Attempts (.write (m.pendingPath signal.id)) := by
  rw [receiveChunk, hclosing]
  simp only [receiveChunkSerial, hblob, receiveBlob, if_neg hrefused, Bool.false_eq_true, if_false, if_true]
  refine .answered yes () (.answered yes () ?_)
  by_cases hgroup : signal.encryption = some blobGroupWireVersion
  · rw [pointerGroup, if_pos hgroup]
    exact .answered yes () (.answered yes () .here)
  · rw [pointerGroup, if_neg hgroup]
    exact .answered yes () .here

/-- **Handling a signal stays inside exactly if the signal is turned down before its id is used or its id stays.** -/
theorem receiveChunk_iff (m : FileTransferManager) (signal : FileTransferSignal) :
    (∀ a, (m.receiveChunk signal).Attempts a → m.Confined a) ↔ m.Admits signal := by
  refine ⟨fun h => ?_, fun h a ha => (keeps_receiveChunk h).of_attempts ha⟩
  by_cases hclosing : m.closing = true
  · exact .inl hclosing
  rw [Bool.not_eq_true] at hclosing
  refine .inr ?_
  split
  · rename_i hblob
    by_cases hrefused : m.attachments = false ∨ signal.totalChunks ≠ 1 ∨ signal.chunkIndex ≠ 0
    · tauto
    · have hinside : m.Inside (resolve (m.pendingPath signal.id)) := h _ (attempts_blob hclosing hblob hrefused)
      rw [pendingPath, resolve_child (directory_no_nul (blobs_mem m))] at hinside
      exact .inr (.inr (.inr hinside))
  · rename_i hblob
    rw [Bool.not_eq_true] at hblob
    by_cases hrejects : m.Rejects signal
    · exact .inl hrejects
    · obtain ⟨hcreate, hdelete⟩ := attempts_part hclosing hblob hrejects
      exact .inr (partStays_iff.2 ⟨h _ hcreate, h _ hdelete⟩)

/-- **Where handling what a peer sends leads**: signals stay inside exactly if they are admitted, pointers always do. -/
theorem confinement (m : FileTransferManager) :
    (∀ signal : FileTransferSignal, (∀ a, (m.receiveChunk signal).Attempts a → m.Confined a) ↔ m.Admits signal) ∧
    (∀ senderId groupId payload a, (m.acceptBlobPointer senderId groupId payload).Attempts a → m.Confined a) ∧
    ∀ entries a, (m.retryPendingBlobs entries).Attempts a → m.Confined a :=
  ⟨m.receiveChunk_iff, fun _ _ _ _ ha => (keeps_acceptBlobPointer _ _ _).of_attempts ha,
    fun entries _ ha => (keeps_retryPendingBlobs entries).of_attempts ha⟩

/-- The files of an application, with the ASCII letters and digits for all of Unicode's. -/
def sample : FileTransferManager where
  filesDirectory := ⟨"/data/app", by decide⟩
  unicode := ⟨Char.isAlphanum, fun s => s, rfl, rfl⟩
  chunkSize := 128 * 1024
  maximumFileSize := 100 * 1024 * 1024
  vault := true
  attachments := true
  blobDownloadDelays := 3
  closing := false

def hostile : FileTransferSignal where
  senderId := "mallory"
  recipientId := "alice"
  timestamp := "2026-01-01 00:00:00.000"
  fileName := "photo.jpg"
  mimeType := "image/jpeg"
  fileSize := 1
  data := ""
  groupId := none
  transferId := some "../.."
  chunkIndex := 0
  totalChunks := 1
  caption := none
  isViewOnce := false
  originalMessageId := none
  absoluteExpiresAt := none
  encryption := none

/-- It has everything below the directory above the application's files deleted. -/
theorem deletes_outside : ∃ e, (sample.receiveChunk hostile).Attempts (.delete e) ∧
    resolve e = ["data".toList] ∧ ¬ sample.Confined (.delete e) := by
  have hattempts : (sample.receiveChunk hostile).Attempts
      (.delete (PosixPath.child sample.incomingParts hostile.id)) := (attempts_part rfl (by decide) (by decide)).2
  have hinside : ¬ sample.Inside (resolve (PosixPath.child sample.incomingParts hostile.id)) := by decide +kernel
  exact ⟨_, hattempts, by decide +kernel, hinside⟩

end FileTransferManager

end FileTransfer
end SecureChat
