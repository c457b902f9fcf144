import SecureChat.StorageSnapshot
/-!
# RecordStore — the rows on disk

One table of rows, each a document under its collection and its id.  A write is a list of statements; what a list leaves
in a row follows from the statements that touch it (`execAll_get`).  `loadSnapshot` reads the rows back into memory.
-/
namespace SecureChat
namespace Storage

open GroupControl (Text)

inductive CollectionName
  | tracked (c : Collection)
  | messages
deriving DecidableEq

abbrev Rows := Table Text Json

abbrev Records := CollectionName → Rows

inductive Statement
  | deleteAll
  | deleteCollection (n : CollectionName)
  | insertOrReplace (n : CollectionName) (id : Text) (data : Json)
  | delete (n : CollectionName) (id : Text)

namespace Statement

def exec : Statement → Records → Records
  | deleteAll                , _ => fun _ => .empty
  | deleteCollection n       , r => Function.update r n .empty
  | insertOrReplace n id data, r => Function.update r n ((r n).assign id data)
  | delete n id              , r => Function.update r n ((r n).remove id)

def execAll (l : List Statement) (r : Records) : Records := l.foldl (fun r st => st.exec r) r

def touch (n : CollectionName) (id : Text) : Statement → Option (Option Json)
  | deleteAll => some none
  | deleteCollection n' => if n' = n then some none else none
  | insertOrReplace n' id' data => if n' = n ∧ id' = id then some (some data) else none
  | delete n' id' => if n' = n ∧ id' = id then some none else none

variable {n : CollectionName} {id : Text} {r : Records}

theorem exec_get (st : Statement) : (st.exec r n).get id = (st.touch n id).getD ((r n).get id) := by
  cases st with
  | deleteAll => rfl
  | deleteCollection n' =>
    by_cases hn : n' = n
    · subst hn
      simp [exec, touch]
    · simp [exec, touch, hn, Function.update_of_ne (Ne.symm hn)]
  | insertOrReplace n' id' data =>
    by_cases hn : n' = n
    · subst hn
      by_cases hid : id' = id
      · simp [exec, touch, hid, Table.get_assign_self]
      · simp [exec, touch, hid, Table.get_assign_of_ne (Ne.symm hid)]
    · simp [exec, touch, hn, Function.update_of_ne (Ne.symm hn)]
  | delete n' id' =>
    by_cases hn : n' = n
    · subst hn
      by_cases hid : id' = id
      · simp [exec, touch, hid, Table.get_remove_self]
      · simp [exec, touch, hid, Table.get_remove_of_ne (Ne.symm hid)]
    · simp [exec, touch, hn, Function.update_of_ne (Ne.symm hn)]

/-- **Statements that agree about a row**: it holds what they say, or what it held when none of them touches it. -/
theorem execAll_get {x : Option Json} {l : List Statement} :
    ∀ {r : Records}, (∀ st ∈ l, ∀ y, st.touch n id = some y → y = x) →
      (execAll l r n).get id = if ∃ st ∈ l, (st.touch n id).isSome = true then x else (r n).get id := by
  induction l with
  | nil => simp [execAll]
  | cons st l ih =>
    intro r h
    have hrest := ih (r := st.exec r) fun st' hst' => h st' (List.mem_cons_of_mem _ hst')
    have hcons : execAll (st :: l) r = execAll l (st.exec r) := rfl
    rw [hcons, hrest, exec_get]
    cases htouch : st.touch n id with
    | none => simp [htouch]
    | some y =>
      have hy : y = x := h st List.mem_cons_self y htouch
      simp [htouch, hy]

theorem execAll_append (l l' : List Statement) (r : Records) : execAll (l ++ l') r = execAll l' (execAll l r) :=
  List.foldl_append

end Statement

/-! ### Reading -/

def readMessage (data : Json) : Option MessageEntity := (Json.asMap data).bind MessageEntity.fromJson

def messageRows (r : Records) : MessageRows := (r .messages).filterMapValues readMessage

def readRow (now : ℤ) (c : Collection) (row : Text × Json) : Option (c.Key × c.Value) :=
  (c.parse row.1).bind fun k => ((Json.asMap row.2).bind (c.decode now)).map fun v => (k, v)

def loadCollection (now : ℤ) (c : Collection) (rows : Rows) : Option (Table c.Key c.Value) :=
  (rows.entries.mapM (readRow now c)).map Table.ofList

def loadSnapshot (now : ℤ) (r : Records) : Option StorageSnapshot :=
  if ∀ c ∈ Collection.all, (loadCollection now c (r (.tracked c))).isSome = true then
    some { maps := fun c => .ofTable ((loadCollection now c (r (.tracked c))).getD .empty)
           messages := .connected }
  else none

def document (c : Collection) (v : c.Value) : Json := .obj (c.encode v)

structure WellFormed (r : Records) : Prop where
  maps : ∀ c id data, (r (.tracked c)).get id = some data → ∃ k v, id = c.idOf k ∧ data = document c v
  messages : ∀ id data, (r .messages).get id = some data → ∃ m : MessageEntity, data = .obj m.toJson

/-- **Memory and disk hold the same rows**, and no row on disk is unread. -/
structure SameRows (r : Records) (s : StorageSnapshot) : Prop where
  maps : ∀ c k, (r (.tracked c)).get (c.idOf k) = ((s.maps c).get k).map (document c)
  ids : ∀ c id, ((r (.tracked c)).get id).isSome = true → ∃ k, id = c.idOf k
  messages : ∀ id, (r .messages).get id =
    (s.messages.get (some (messageRows r)) id).1.map fun m => .obj m.toJson

variable {r : Records} {s : StorageSnapshot}

theorem readMessage_obj (fields : Json.Fields) : readMessage (.obj fields) = MessageEntity.fromJson fields := rfl

theorem bind_readMessage (o : Option MessageEntity) : (o.map fun m => Json.obj m.toJson).bind readMessage = o := by
  cases o with
  | none => rfl
  | some m => rw [Option.map_some, Option.bind_some, readMessage_obj, MessageEntity.fromJson_toJson]

theorem get_messageRows (r : Records) (id : Text) : (messageRows r).get id = ((r .messages).get id).bind readMessage :=
  Table.get_filterMapValues readMessage

theorem SameRows.wellFormed (h : SameRows r s) : WellFormed r := by
  constructor
  · intro c id data hdata
    obtain ⟨k, rfl⟩ := h.ids c id (by rw [hdata]; rfl)
    rw [h.maps] at hdata
    obtain ⟨v, -, rfl⟩ := Option.map_eq_some_iff.1 hdata
    exact ⟨k, v, rfl, rfl⟩
  · intro id data hdata
    rw [h.messages] at hdata
    obtain ⟨m, -, rfl⟩ := Option.map_eq_some_iff.1 hdata
    exact ⟨m, rfl⟩

theorem readRow_document (now : ℤ) (c : Collection) (k : c.Key) (v : c.Value) :
    readRow now c (c.idOf k, document c v) = some (k, v) := by
  simp [readRow, document]

theorem document_inj {c : Collection} {v v' : c.Value} (h : document c v = document c v') : v = v' := by
  have hfields : c.encode v = c.encode v' := Json.obj.inj h
  have hdecode : some v = some v' := by rw [← Collection.decode_encode 0 c v, hfields, Collection.decode_encode]
  exact Option.some.inj hdecode

theorem exists_map {α β : Type} {f : α → β} : ∀ {l : List β}, (∀ b ∈ l, ∃ a, b = f a) → ∃ l' : List α, l = l'.map f
  | []    , _ => ⟨[], rfl⟩
  | b :: l, h => by
    obtain ⟨a, rfl⟩ := h b List.mem_cons_self
    obtain ⟨l', rfl⟩ := exists_map fun b' hb' => h b' (List.mem_cons_of_mem _ hb')
    exact ⟨a :: l', rfl⟩

theorem loadCollection_spec (now : ℤ) (c : Collection) {rows : Rows}
    (h : ∀ id data, rows.get id = some data → ∃ k v, id = c.idOf k ∧ data = document c v) :
    ∃ t, loadCollection now c rows = some t ∧ ∀ k v, t.get k = some v ↔ rows.get (c.idOf k) = some (document c v) := by
  let row (x : c.Key × c.Value) : Text × Json := (c.idOf x.1, document c x.2)
  obtain ⟨l, hl⟩ : ∃ l : List (c.Key × c.Value), rows.entries = l.map row := by
    refine exists_map fun x hx => ?_
    obtain ⟨k, v, hid, hdata⟩ := h x.1 x.2 (Table.get_eq_some.2 hx)
    exact ⟨(k, v), Prod.ext hid hdata⟩
  have hkeys : (l.map Prod.fst).Nodup := by
    have hnodup := rows.nodup
    rw [hl, List.map_map] at hnodup
    have hcomp : (l.map (Prod.fst ∘ row)) = (l.map Prod.fst).map c.idOf := by rw [List.map_map]; rfl
    rw [hcomp] at hnodup
    exact hnodup.of_map _
  have hread : rows.entries.mapM (readRow now c) = some l := by
    rw [hl]
    exact Json.mapM_map (fun x => readRow_document now c x.1 x.2) l
  refine ⟨Table.ofList l, by rw [loadCollection, hread]; rfl, fun k v => ?_⟩
  rw [Table.get_ofList hkeys, Table.get_eq_some, hl, List.mem_map]
  constructor
  · intro hmem
    exact ⟨(k, v), hmem, rfl⟩
  · rintro ⟨x, hx, he⟩
    obtain ⟨hid, hdata⟩ := Prod.mk.inj he
    have hk : x.1 = k := Collection.idOf_inj hid
    have hv : x.2 = v := document_inj hdata
    rw [← hk, ← hv]
    exact hx

theorem connected_get (disk : MessageRows) (id : Text) :
    (MessageTable.connected.get (some disk) id).1 = disk.get id := by
  cases hrow : disk.get id with
  | none => simp [MessageTable.get, MessageTable.connected, MessageTable.diskVisible, hrow]
  | some m => simp [MessageTable.get, MessageTable.connected, MessageTable.diskVisible, hrow]

theorem messages_roundTrip (h : WellFormed r) (id : Text) :
    (r .messages).get id = ((messageRows r).get id).map fun m => .obj m.toJson := by
  rw [get_messageRows]
  cases hdata : (r .messages).get id with
  | none => rfl
  | some data =>
    obtain ⟨m, rfl⟩ := h.messages id data hdata
    rw [Option.bind_some, readMessage_obj, MessageEntity.fromJson_toJson, Option.map_some]

/-- **Rows of documents load**: memory then holds what the disk holds, and nothing is noted or pending. -/
theorem loadSnapshot_spec (now : ℤ) (h : WellFormed r) :
    ∃ s, loadSnapshot now r = some s ∧ SameRows r s ∧ (∀ c, (s.maps c).previous = .empty) ∧
      s.messages = .connected := by
  have hload := fun c => loadCollection_spec now c (h.maps c)
  have hall : ∀ c ∈ Collection.all, (loadCollection now c (r (.tracked c))).isSome = true := by
    intro c _
    obtain ⟨t, ht, -⟩ := hload c
    rw [ht]
    rfl
  refine ⟨_, if_pos hall, ⟨?_, ?_, ?_⟩, fun c => rfl, rfl⟩
  · intro c k
    obtain ⟨t, ht, hget⟩ := hload c
    have hmap : (TrackedMap.ofTable ((loadCollection now c (r (.tracked c))).getD .empty)).get k = t.get k := by
      rw [ht]
      rfl
    rw [hmap]
    cases hk : t.get k with
    | some v => rw [(hget k v).1 hk, Option.map_some]
    | none =>
      cases hdata : (r (.tracked c)).get (c.idOf k) with
      | none => rfl
      | some data =>
        obtain ⟨k', v, hid, rfl⟩ := h.maps c _ data hdata
        rw [(hget k v).2 hdata] at hk
        cases hk
  · intro c id hsome
    obtain ⟨data, hdata⟩ := Option.isSome_iff_exists.1 hsome
    obtain ⟨k, v, hid, -⟩ := h.maps c id data hdata
    exact ⟨k, hid⟩
  · intro id
    rw [connected_get]
    exact messages_roundTrip h id

end Storage
end SecureChat
