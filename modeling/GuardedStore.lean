import GuardedStore.Access.RulesFile
import GuardedStore.Account.Credentials
import GuardedStore.Http.Server
import GuardedStore.Json.Writer
import GuardedStore.Query.Shape
import GuardedStore.Request.Execution
import GuardedStore.Seed
import GuardedStore.Settings
import GuardedStore.Value.Record
import GuardedStore.Proofs.Run
import GuardedStore.Proofs.Store.Contents
import GuardedStore.Proofs.Access.Denial
import GuardedStore.Proofs.Request.Effect
import GuardedStore.Proofs.Request.Ownership
import GuardedStore.Proofs.Store.Fields
import GuardedStore.Proofs.Store.History
import GuardedStore.Proofs.Store.Writes
import GuardedStore.Proofs.Account.Effect
import GuardedStore.Proofs.Account.Run
import GuardedStore.Proofs.Atomicity
import GuardedStore.Proofs.Digest.Ideal
import GuardedStore.Proofs.Account.Sessions
import GuardedStore.Proofs.Account.Registration
import GuardedStore.Proofs.Account.Identities
import GuardedStore.Proofs.Agreement
import GuardedStore.Proofs.Query.Relations
import GuardedStore.Proofs.Request.Confidentiality
import GuardedStore.Proofs.Access.Stripping
import GuardedStore.Proofs.Request.DeniedFields
import GuardedStore.Proofs.Expression.Following
import GuardedStore.Proofs.Expression.Blindness
import GuardedStore.Proofs.Access.Blindness
import GuardedStore.Proofs.Query.Arrangement
import GuardedStore.Proofs.Request.Gating
import GuardedStore.Proofs.Request.Visibility
import GuardedStore.Proofs.Value.Likeness
import GuardedStore.Proofs.Expression.Writing
import GuardedStore.Proofs.Expression.Lexing
import GuardedStore.Proofs.Expression.Rereading
import GuardedStore.Proofs.Expression.Roundtrip
import GuardedStore.Proofs.Expression.Readback
import GuardedStore.Proofs.Query.Blindness
import GuardedStore.Proofs.Access.Determinacy
import GuardedStore.Proofs.Request.SystemFields
import GuardedStore.Proofs.Request.Redaction
import GuardedStore.Proofs.Request.Disguise
import GuardedStore.Proofs.Request.Unshared
import GuardedStore.Proofs.Request.HiddenFields
import GuardedStore.Proofs.Access.RawReading
import GuardedStore.Proofs.Access.Layering
import GuardedStore.Proofs.Query.Cutting
import GuardedStore.Proofs.Value.Range
import GuardedStore.Proofs.Query.Faults
import GuardedStore.Proofs.Expression.Ranges
import GuardedStore.Proofs.Expression.Faults
import GuardedStore.Proofs.Json.Ends
import GuardedStore.Proofs.Query.Writing
import GuardedStore.Proofs.Query.Meaning
import GuardedStore.Proofs.Request.Listing
import GuardedStore.Proofs.Expression.Addresses
import GuardedStore.Proofs.Request.Singly
import GuardedStore.Proofs.Http.Failures
import GuardedStore.Proofs.Access.FileReading
import GuardedStore.Proofs.Access.WellFormed
import GuardedStore.Proofs.Access.Silence
import GuardedStore.Proofs.Request.Immutability
import GuardedStore.Proofs.Query.Pages
import GuardedStore.Proofs.Query.Sorting
import GuardedStore.Proofs.Query.Repetitions
import GuardedStore.Proofs.Value.Structure
import GuardedStore.Proofs.IntegerOrder
import GuardedStore.Proofs.Query.Literals
import GuardedStore.Proofs.Access.Permission
import GuardedStore.Proofs.Access.OwnerRule
import GuardedStore.Proofs.Request.Frame
import GuardedStore.Proofs.Store.Rewriting
import GuardedStore.Proofs.Store.Searching
import GuardedStore.Proofs.Access.Rejection
import GuardedStore.Proofs.Request.SameUser
import GuardedStore.Proofs.Query.Lists
import GuardedStore.Proofs.Expression.Derivation
import GuardedStore.Proofs.Store.Adding
