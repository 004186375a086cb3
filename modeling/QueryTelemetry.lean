import QueryTelemetry.Collection
import QueryTelemetry.Connection.Scripted
import QueryTelemetry.Main
import QueryTelemetry.Proofs.Baselines.RowOrder
import QueryTelemetry.Proofs.Collection.Course
import QueryTelemetry.Proofs.Collection.Discovery
import QueryTelemetry.Proofs.Collection.Drift
import QueryTelemetry.Proofs.Collection.Forgetting
import QueryTelemetry.Proofs.Collection.Intervals
import QueryTelemetry.Proofs.Collection.Joining
import QueryTelemetry.Proofs.Collection.Omission
import QueryTelemetry.Proofs.Collection.Outcome
import QueryTelemetry.Proofs.Collection.Refusal
import QueryTelemetry.Proofs.Connection.Contacts
import QueryTelemetry.Proofs.Decimal.Doubles
import QueryTelemetry.Proofs.Decimal.Rounding
import QueryTelemetry.Proofs.Delivery.Room
import QueryTelemetry.Proofs.ExpiringSet.Admission
import QueryTelemetry.Proofs.ExpiringSet.Ledger
import QueryTelemetry.Proofs.Redaction.Comments
import QueryTelemetry.Proofs.Redaction.Idempotence
import QueryTelemetry.Proofs.Redaction.Lists
import QueryTelemetry.Proofs.Redaction.Mentions
import QueryTelemetry.Proofs.Redaction.Origin
import QueryTelemetry.Proofs.Redaction.Outline
import QueryTelemetry.Proofs.Redaction.Passage
import QueryTelemetry.Proofs.Redaction.TableNames
import QueryTelemetry.Proofs.Sampling.History
import QueryTelemetry.Proofs.Sampling.Resumption
import QueryTelemetry.Rehearsal
import QueryTelemetry.Proofs.Decimal.Normal
import QueryTelemetry.Proofs.Durations
import QueryTelemetry.Proofs.Settings
import QueryTelemetry.Proofs.Collection.Requests
import QueryTelemetry.Proofs.Collection.Independence
import QueryTelemetry.Proofs.Connection.Databases
import QueryTelemetry.Proofs.Connection.Parameters
import QueryTelemetry.Proofs.Collection.Versions
import QueryTelemetry.Proofs.ExpiringSet.Bookkeeping
import QueryTelemetry.Proofs.Collection.GivenOptions
import QueryTelemetry.Proofs.Rehearsal
