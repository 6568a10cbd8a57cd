import CachingResolver.Main
import CachingResolver.Proofs.Cache.Key
import CachingResolver.Proofs.Cache.Age
import CachingResolver.Proofs.Cache.Reading
import CachingResolver.Proofs.Cache.Storing
import CachingResolver.Proofs.Cache.EnclosingZone
import CachingResolver.Proofs.Cache.History
import CachingResolver.Proofs.IpAddress
import CachingResolver.Proofs.Lookup.Step
import CachingResolver.Proofs.Lookup.Isolation
import CachingResolver.Proofs.Lookup.Referral
import CachingResolver.Proofs.Lookup.Progress
import CachingResolver.Proofs.Octets
import CachingResolver.Proofs.DomainName
import CachingResolver.Proofs.Lookup.Inquiry
import CachingResolver.Proofs.AnswerChain
import CachingResolver.Proofs.Lookup.AnswerScope
import CachingResolver.Proofs.Lookup.Settlement
import CachingResolver.Proofs.Lookup.FromCache
import CachingResolver.Proofs.Lookup.Course
import CachingResolver.Proofs.Cache.RootHints
import CachingResolver.Proofs.Lookup.RootFallback
import CachingResolver.Proofs.Lookup.Budget
import CachingResolver.Proofs.Lookup.Repeat
import CachingResolver.Proofs.Cache.Trail
import CachingResolver.Proofs.Lookup.Provenance
import CachingResolver.Proofs.Lookup.Delivery
import CachingResolver.Proofs.Lookup.Asking
import CachingResolver.Proofs.Lookup.Refusal
import CachingResolver.Proofs.Lookup.Completeness
import CachingResolver.Proofs.NameText
import CachingResolver.Proofs.ZoneCuts
import CachingResolver.Proofs.Utf8
import CachingResolver.Proofs.Text
import CachingResolver.Proofs.NameReading
import CachingResolver.Proofs.International
import CachingResolver.Proofs.Except
import CachingResolver.Proofs.Message.Received
import CachingResolver.Proofs.Message.Writer
import CachingResolver.Proofs.Message.Octets
import CachingResolver.Proofs.Message.Codec
import CachingResolver.Proofs.Message.Record
import CachingResolver.Proofs.Lookup.Reply
import CachingResolver.Proofs.Message.Reply
import CachingResolver.Proofs.Cbor
import CachingResolver.Proofs.Cache.Checkpoint
import CachingResolver.Proofs.Cache.Lifetime
import CachingResolver.Proofs.Cache.Spelling
import CachingResolver.Proofs.Lookup.Admission
import CachingResolver.Proofs.Network
import CachingResolver.Proofs.Lookup.Composition
import CachingResolver.Proofs.Lookup.Forwarding
import CachingResolver.Proofs.AnswerWalk
import CachingResolver.Proofs.Cache.Lookups
import CachingResolver.Proofs.Cache.ZoneSearch
import CachingResolver.Proofs.Cache.Glue
import CachingResolver.Proofs.Lines
import CachingResolver.Proofs.ResolvConf
import CachingResolver.Proofs.Cache.Seeding
import CachingResolver.Proofs.Message.Meaning
import CachingResolver.Proofs.Cbor.Truncation
import CachingResolver.Proofs.NameOrder
import CachingResolver.Proofs.Cache.Enclosure
import CachingResolver.Proofs.Lookup.WorkStack
import CachingResolver.Proofs.Lookup.Silence
import CachingResolver.Proofs.Distinct
import CachingResolver.Proofs.Cache.Merging
import CachingResolver.Proofs.Zone.Additions
import CachingResolver.Proofs.Lookup.ServerChoice
