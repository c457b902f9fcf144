import SecureChat.ReliableDelivery
import SecureChat.ReliableRuns
import SecureChat.OfflineDelivery
import SecureChat.BundleConsistency
import SecureChat.UploadAtomicity
import SecureChat.PublisherKeys
import SecureChat.IdentityPinning
import SecureChat.RecoveryGrants
import SecureChat.IncomingRuns
import SecureChat.GroupReplayWindow
import SecureChat.GroupCallHandover
import SecureChat.GroupConvergence
import SecureChat.RefreshRotation
import SecureChat.RegistryConsistency
import SecureChat.EncryptedCallSignaling
import SecureChat.StoredTokens
import SecureChat.ScheduledOnce
import SecureChat.ScheduledEdits
import SecureChat.CredentialRevocation
import SecureChat.PresenceTruth
import SecureChat.FileConfinement
import SecureChat.ContactDiscovery
import SecureChat.EnvelopeRoundTrip
import SecureChat.DatabaseRuns
import SecureChat.CallFinality
import SecureChat.CallEnding
import SecureChat.GroupAdmins
import SecureChat.MessageConfinement
import SecureChat.SealedContainer
import SecureChat.KeyDelivery
import SecureChat.AttachmentDelivery
import SecureChat.PollVotes
import SecureChat.ControlFrames
import SecureChat.RestoreFailures
import SecureChat.PinnedSessions
import SecureChat.ReliableOrder
import SecureChat.UploadCap
import SecureChat.DirectDecryption
import SecureChat.SubscriptionTruth
import SecureChat.RefreshExclusion
import SecureChat.SnapshotFreshness
import SecureChat.BackgroundSessions
import SecureChat.OutboxProgress
import SecureChat.AdmittedCosts
import SecureChat.ForwardedAddress
import SecureChat.PaddedTexts
import SecureChat.ReceiptSets
import SecureChat.LivePins
import SecureChat.LockThrottle
import SecureChat.RecoveryGuesses
import SecureChat.OtpCooldown
import SecureChat.RetryAfter
import SecureChat.DirectoryQuota
import SecureChat.BackupGuesses
import SecureChat.EditConvergence
import SecureChat.LongestSuffix
import SecureChat.QueueTrimming
import SecureChat.NextTrigger
import SecureChat.ConversationPreview
import SecureChat.PreviewCurrency
import SecureChat.PreviewRuns
import SecureChat.ReactionTexts
import SecureChat.EditControls
import SecureChat.ChunkReader
import SecureChat.NonceSequence
import SecureChat.MissedCalls
import SecureChat.BackupCrypto
import SecureChat.KeySupply
import SecureChat.ViewOnce
import SecureChat.PrivateControls
