import SecureChat.MessageSelect
import SecureChat.TrackedMap
/-!
# StorageSnapshot — the tables of the database in memory

Eighteen maps and the table of the messages.  `encode` and `idOf` say how a row of a map is stored, `parse` and `decode`
how it is read (`decode_encode`, `parse_idOf`).
-/
namespace SecureChat
namespace Storage

open GroupControl (Text)
open Json (Fields)

inductive Collection
  | conversations | contacts | callLogs | scheduledMessages | scheduledMessageHistory | exportLogs | pendingTimerUpdates
  | identities | preKeys | signedPreKeys | sessions | senderKeys | pendingSignals | cryptoState
  | vodozemacAccount | vodozemacSessions | vodozemacGroupSessions | vodozemacInboundGroupSessions
deriving DecidableEq

namespace Collection

/-- `tracked`, without the messages. -/
def all : List Collection :=
  [conversations, contacts, callLogs, scheduledMessages, scheduledMessageHistory, exportLogs, pendingTimerUpdates,
   identities, preKeys, signedPreKeys, sessions, senderKeys, pendingSignals, cryptoState, vodozemacAccount,
   vodozemacSessions, vodozemacGroupSessions, vodozemacInboundGroupSessions]

theorem mem_all (c : Collection) : c ∈ all := by
  cases c <;> decide

abbrev Key : Collection → Type
  | preKeys => Int64
  | signedPreKeys => Int64
  | _ => Text

instance (c : Collection) : DecidableEq c.Key :=
  match c with
  | preKeys => inferInstanceAs (DecidableEq Int64)
  | signedPreKeys => inferInstanceAs (DecidableEq Int64)
  | conversations => inferInstanceAs (DecidableEq Text)
  | contacts => inferInstanceAs (DecidableEq Text)
  | callLogs => inferInstanceAs (DecidableEq Text)
  | scheduledMessages => inferInstanceAs (DecidableEq Text)
  | scheduledMessageHistory => inferInstanceAs (DecidableEq Text)
  | exportLogs => inferInstanceAs (DecidableEq Text)
  | pendingTimerUpdates => inferInstanceAs (DecidableEq Text)
  | identities => inferInstanceAs (DecidableEq Text)
  | sessions => inferInstanceAs (DecidableEq Text)
  | senderKeys => inferInstanceAs (DecidableEq Text)
  | pendingSignals => inferInstanceAs (DecidableEq Text)
  | cryptoState => inferInstanceAs (DecidableEq Text)
  | vodozemacAccount => inferInstanceAs (DecidableEq Text)
  | vodozemacSessions => inferInstanceAs (DecidableEq Text)
  | vodozemacGroupSessions => inferInstanceAs (DecidableEq Text)
  | vodozemacInboundGroupSessions => inferInstanceAs (DecidableEq Text)

abbrev Value : Collection → Type
  | conversations => ConversationEntity
  | contacts => ContactEntity
  | callLogs => CallLogEntity
  | scheduledMessages => ScheduledMessageEntity
  | scheduledMessageHistory => ScheduledMessageHistoryEntity
  | exportLogs => ExportLogEntity
  | pendingTimerUpdates => PendingTimerUpdateEntity
  | identities => IdentityEntity
  | preKeys => PreKeyEntity
  | signedPreKeys => SignedPreKeyEntity
  | sessions => SessionEntity
  | senderKeys => SenderKeyEntity
  | pendingSignals => PendingSignalEntity
  | cryptoState => Text
  | vodozemacAccount => VodozemacAccountEntity
  | vodozemacSessions => VodozemacSessionEntity
  | vodozemacGroupSessions => VodozemacGroupSessionEntity
  | vodozemacInboundGroupSessions => VodozemacInboundGroupSessionEntity

def encode : (c : Collection) → c.Value → Fields
  | conversations                , e => e.toJson
  | contacts                     , e => e.toJson
  | callLogs                     , e => e.toJson
  | scheduledMessages            , e => e.toJson
  | scheduledMessageHistory      , e => e.toJson
  | exportLogs                   , e => e.toJson
  | pendingTimerUpdates          , e => e.toJson
  | identities                   , e => e.toJson
  | preKeys                      , e => e.toJson
  | signedPreKeys                , e => e.toJson
  | sessions                     , e => e.toJson
  | senderKeys                   , e => e.toJson
  | pendingSignals               , e => e.toJson
  | cryptoState                  , v => [("value", .str v)]
  | vodozemacAccount             , e => e.toJson
  | vodozemacSessions            , e => e.toJson
  | vodozemacGroupSessions       , e => e.toJson
  | vodozemacInboundGroupSessions, e => e.toJson

def decode (now : ℤ) : (c : Collection) → Fields → Option c.Value
  | conversations                , json => ConversationEntity.fromJson json
  | contacts                     , json => ContactEntity.fromJson json
  | callLogs                     , json => CallLogEntity.fromJson json
  | scheduledMessages            , json => ScheduledMessageEntity.fromJson now json
  | scheduledMessageHistory      , json => ScheduledMessageHistoryEntity.fromJson json
  | exportLogs                   , json => ExportLogEntity.fromJson json
  | pendingTimerUpdates          , json => PendingTimerUpdateEntity.fromJson now json
  | identities                   , json => IdentityEntity.fromJson json
  | preKeys                      , json => PreKeyEntity.fromJson json
  | signedPreKeys                , json => SignedPreKeyEntity.fromJson json
  | sessions                     , json => SessionEntity.fromJson json
  | senderKeys                   , json => SenderKeyEntity.fromJson json
  | pendingSignals               , json => PendingSignalEntity.fromJson json
  | cryptoState                  , json => Json.asString (Json.get json "value")
  | vodozemacAccount             , json => VodozemacAccountEntity.fromJson json
  | vodozemacSessions            , json => VodozemacSessionEntity.fromJson json
  | vodozemacGroupSessions       , json => VodozemacGroupSessionEntity.fromJson json
  | vodozemacInboundGroupSessions, json => VodozemacInboundGroupSessionEntity.fromJson json

@[simp] theorem decode_encode (now : ℤ) (c : Collection) (v : c.Value) : c.decode now (c.encode v) = some v := by
  cases c <;> simp [encode, decode]

def idOf : (c : Collection) → c.Key → Text
  | preKeys                      , k => DartInt.print k
  | signedPreKeys                , k => DartInt.print k
  | conversations                , k => k
  | contacts                     , k => k
  | callLogs                     , k => k
  | scheduledMessages            , k => k
  | scheduledMessageHistory      , k => k
  | exportLogs                   , k => k
  | pendingTimerUpdates          , k => k
  | identities                   , k => k
  | sessions                     , k => k
  | senderKeys                   , k => k
  | pendingSignals               , k => k
  | cryptoState                  , k => k
  | vodozemacAccount             , k => k
  | vodozemacSessions            , k => k
  | vodozemacGroupSessions       , k => k
  | vodozemacInboundGroupSessions, k => k

def parse : (c : Collection) → Text → Option c.Key
  | preKeys                      , id => DartInt.tryParse id
  | signedPreKeys                , id => DartInt.tryParse id
  | conversations                , id => some id
  | contacts                     , id => some id
  | callLogs                     , id => some id
  | scheduledMessages            , id => some id
  | scheduledMessageHistory      , id => some id
  | exportLogs                   , id => some id
  | pendingTimerUpdates          , id => some id
  | identities                   , id => some id
  | sessions                     , id => some id
  | senderKeys                   , id => some id
  | pendingSignals               , id => some id
  | cryptoState                  , id => some id
  | vodozemacAccount             , id => some id
  | vodozemacSessions            , id => some id
  | vodozemacGroupSessions       , id => some id
  | vodozemacInboundGroupSessions, id => some id

@[simp] theorem parse_idOf (c : Collection) (k : c.Key) : c.parse (c.idOf k) = some k := by
  cases c <;> simp [parse, idOf, DartInt.tryParse_print]

theorem idOf_inj {c : Collection} {k k' : c.Key} (h : c.idOf k = c.idOf k') : k = k' := by
  have hparse : some k = some k' := by rw [← parse_idOf c k, h, parse_idOf]
  exact Option.some.inj hparse

end Collection

structure StorageSnapshot where
  maps : (c : Collection) → TrackedMap c.Key c.Value
  messages : MessageTable

namespace StorageSnapshot

def set (c : Collection) (t : TrackedMap c.Key c.Value) (s : StorageSnapshot) : StorageSnapshot :=
  { s with maps := Function.update s.maps c t }

def empty : StorageSnapshot where
  maps _ := .ofTable .empty
  messages := { MessageTable.connected with detached := true }

@[simp] theorem set_maps_self (c : Collection) (t : TrackedMap c.Key c.Value) (s : StorageSnapshot) :
    (s.set c t).maps c = t := by
  simp [set]

theorem set_maps_of_ne {c c' : Collection} (h : c' ≠ c) (t : TrackedMap c.Key c.Value) (s : StorageSnapshot) :
    (s.set c t).maps c' = s.maps c' := by
  simp [set, h]

@[simp] theorem set_messages (c : Collection) (t : TrackedMap c.Key c.Value) (s : StorageSnapshot) :
    (s.set c t).messages = s.messages := rfl

end StorageSnapshot

inductive Change
  | put (c : Collection) (k : c.Key) (v : c.Value)
  | remove (c : Collection) (k : c.Key)
  | removeWhere (c : Collection) (p : c.Key → c.Value → Bool)
  | clear (c : Collection)
  | putMessage (id : Text) (m : MessageEntity)
  | removeMessage (id : Text)
  | removeMessages (q : MessageQuery)
  | clearMessages
  | readMessage (id : Text)
  | readMessages (q : MessageQuery)

namespace StorageSnapshot

def apply (sorters : MessageQuery.Sorters) (rows : MessageRows) (s : StorageSnapshot) : Change → StorageSnapshot
  | .put c k v => s.set c ((s.maps c).put k v)
  | .remove c k => s.set c ((s.maps c).remove k)
  | .removeWhere c p => s.set c ((s.maps c).removeWhere p)
  | .clear c => s.set c (s.maps c).clear
  | .putMessage id m => { s with messages := s.messages.put id m }
  | .removeMessage id => { s with messages := (s.messages.remove (some rows) id).2 }
  | .removeMessages q => { s with messages := (s.messages.removeWhere sorters (some rows) q).2 }
  | .clearMessages => { s with messages := s.messages.clear }
  | .readMessage id => { s with messages := (s.messages.get (some rows) id).2 }
  | .readMessages q => { s with messages := (s.messages.select sorters (some rows) q).2 }

end StorageSnapshot

end Storage
end SecureChat
