import Ptarmigan.Frame
import Ptarmigan.SlotChange
import Ptarmigan.Settlement
import Ptarmigan.Balance
import Ptarmigan.Dance
import Ptarmigan.Crash
import Ptarmigan.Backward
import Ptarmigan.ClosedTx
import Ptarmigan.Crossing
import Ptarmigan.ForceClose
import Ptarmigan.HtlcId
import Ptarmigan.HtlcIndex
import Ptarmigan.IdRun
import Ptarmigan.Library.BigEndian
import Ptarmigan.Library.KeyStream
import Ptarmigan.Library.PrefixTree
import Ptarmigan.Library.Tally
import Ptarmigan.Monitor
import Ptarmigan.Recovery
import Ptarmigan.RecoveryRun
import Ptarmigan.Extraction
import Ptarmigan.DerkeyStorage
import Ptarmigan.OnionFailure
import Ptarmigan.OnionPacket
import Ptarmigan.Transport
import Ptarmigan.Handshake
import Ptarmigan.FeeDance
import Ptarmigan.PendingHtlc
import Ptarmigan.MutualClose
import Ptarmigan.Negotiation
import Ptarmigan.EstablishMsg
import Ptarmigan.Funding
import Ptarmigan.Library.WireReader
import Ptarmigan.WireMsg
import Ptarmigan.Library.Layout
import Ptarmigan.OperationMsg
import Ptarmigan.SetupMsg
import Ptarmigan.AnnounceMsg
import Ptarmigan.PeerMsg
import Ptarmigan.MsgDispatch
import Ptarmigan.CommitSigned
import Ptarmigan.Library.LittleEndian
import Ptarmigan.TxSerial
import Ptarmigan.Bech32
import Ptarmigan.Library.Radix
import Ptarmigan.Routing
import Ptarmigan.RecoverPubkey
import Ptarmigan.Invoice
import Ptarmigan.InvoiceSafety
import Ptarmigan.InvoiceEncode
import Ptarmigan.InvoiceRoundTrip
import Ptarmigan.AnnoDb
import Ptarmigan.CnlAnno
import Ptarmigan.Gossip
import Ptarmigan.FundingAgreement
import Ptarmigan.TxSort
import Ptarmigan.SlotOrder
import Ptarmigan.InitFeatures
import Ptarmigan.Bolt4
import Ptarmigan.FailureBounds
import Ptarmigan.RejectedAdd
import Ptarmigan.CommitQuery
import Ptarmigan.RouteGraph
import Ptarmigan.InFlightLimits
import Ptarmigan.TxSpelt
import Ptarmigan.TxRoundTrip
import Ptarmigan.TxRead
import Ptarmigan.EstablishOrder
import Ptarmigan.Library.DerInteger
import Ptarmigan.SigFormat
import Ptarmigan.Lmdb
import Ptarmigan.RevokedStore
import Ptarmigan.WalletStore
import Ptarmigan.ExtKey
import Ptarmigan.CommitArithmetic
import Ptarmigan.Library.DoubleHash
import Ptarmigan.SwSighash
import Ptarmigan.Library.OrderedMatch
import Ptarmigan.Multisig
import Ptarmigan.MultisigCheck
import Ptarmigan.MultisigVerify
import Ptarmigan.Library.RecordCursor
import Ptarmigan.PreimgFrame
import Ptarmigan.PeerSecret
import Ptarmigan.KeyPair
import Ptarmigan.Library.Script
import Ptarmigan.WitnessScript
import Ptarmigan.SpendHtlc
import Ptarmigan.Wallet
import Ptarmigan.WalletSpend
import Ptarmigan.FundingSpend
import Ptarmigan.PenaltySpend
import Ptarmigan.Bech32Burst
import Ptarmigan.Address
