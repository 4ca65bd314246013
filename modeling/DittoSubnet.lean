import DittoSubnet.Validator.Fold
import DittoSubnet.Validator.OrderFree
import DittoSubnet.Platform.FoldAgreement
import DittoSubnet.Platform.RetestCohort
import DittoSubnet.Platform.RowAgreement
import DittoSubnet.Validator.Emission
import DittoSubnet.Kit.Tally
import DittoSubnet.Validator.Tracks
import DittoSubnet.Kit.Transaction
import DittoSubnet.Treasury.Allocation
import DittoSubnet.Treasury.Journal
import DittoSubnet.Treasury.Collector
import DittoSubnet.Treasury.Changes
import DittoSubnet.Treasury.Receipts
import DittoSubnet.Kit.Window
import DittoSubnet.Treasury.Authority
import DittoSubnet.Treasury.Entitlement
import DittoSubnet.Kit.Outbox
import DittoSubnet.Treasury.Dispatch
import DittoSubnet.Treasury.Reconcile
import DittoSubnet.Kit.ReadCommitted
import DittoSubnet.Platform.Tickets
import DittoSubnet.Platform.Sweep
import DittoSubnet.Platform.Leases
import DittoSubnet.Kit.Rows
import DittoSubnet.Relay.Grants
import DittoSubnet.Platform.Inference
import DittoSubnet.Relay.Conservation
import DittoSubnet.Relay.Parity
import DittoSubnet.Kit.Chain
import DittoSubnet.Treasury.TopUp
import DittoSubnet.Treasury.TopUpSafety
import DittoSubnet.Treasury.Mailbox
import DittoSubnet.Treasury.MailboxFinality
import DittoSubnet.Treasury.Migration
import DittoSubnet.Treasury.Ancestry
import DittoSubnet.Bench.ScoreGates
import DittoSubnet.Bench.BaseEvidence
import DittoSubnet.Bench.Mirror
import DittoSubnet.Bench.GateAgreement
import DittoSubnet.Bench.Agreement
import DittoSubnet.Bench.RootBinding
import DittoSubnet.Bench.Signing
import DittoSubnet.Platform.Waves
import DittoSubnet.Platform.Voids
import DittoSubnet.Platform.Generations
import DittoSubnet.Platform.Reruns
import DittoSubnet.Coding.Contract
import DittoSubnet.Coding.Journal
import DittoSubnet.Coding.JournalCrash
import DittoSubnet.Coding.JournalReplay
import DittoSubnet.Kit.Scan
import DittoSubnet.Coding.Receipts
import DittoSubnet.Coding.Relay
import DittoSubnet.Coding.RelaySafe
import DittoSubnet.Coding.RelayRestart
import DittoSubnet.Kit.Memo
import DittoSubnet.Platform.Owners
import DittoSubnet.Platform.Allocator
import DittoSubnet.Treasury.Registration
import DittoSubnet.Treasury.Earnings
import DittoSubnet.Bench.PricedCost
import DittoSubnet.Bench.PricedWords
import DittoSubnet.Bench.PricedRule
import DittoSubnet.Kit.Keyset
import DittoSubnet.Platform.OutageSweep
import DittoSubnet.Platform.Attempts
import DittoSubnet.Kit.Smallest
import DittoSubnet.Kit.UnionFind
import DittoSubnet.Similarity.Sketch
import DittoSubnet.Generator.Score
import DittoSubnet.Generator.Run
import DittoSubnet.Generator.Appended
import DittoSubnet.Similarity.Budgets
import DittoSubnet.Generator.Round
import DittoSubnet.Validator.FirstSeen
import DittoSubnet.Platform.LinkageBatch
import DittoSubnet.Generator.OwnColumn
import DittoSubnet.Treasury.Legs
import DittoSubnet.Kit.Utf8
import DittoSubnet.Kit.JsonText
import DittoSubnet.Coding.RawUnicode
import DittoSubnet.Platform.EmissionAllocation
import DittoSubnet.Validator.ServiceFold
import DittoSubnet.Validator.Ceiling
import DittoSubnet.Validator.RankShares
import DittoSubnet.Kit.Transducer
import DittoSubnet.Similarity.NormalizedSource
import DittoSubnet.Similarity.Repack
import DittoSubnet.Kit.Directory
import DittoSubnet.CodingOutbox.Durable
