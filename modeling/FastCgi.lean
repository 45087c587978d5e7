import FastCgi.Library.Assignments
import FastCgi.Library.DoublyLinked
import FastCgi.Library.Framing
import FastCgi.Library.History
import FastCgi.Library.Loop
import FastCgi.Library.Separators
import FastCgi.Library.Simulation
import FastCgi.Library.Transitions
import FastCgi.Model.Endian
import FastCgi.Model.Buffer
import FastCgi.Model.CgiUtils
import FastCgi.Model.Cgicc
import FastCgi.Model.Codec
import FastCgi.Model.Cocgi
import FastCgi.Model.Mucgi
import FastCgi.Model.Respond
import FastCgi.Model.Handlers
import FastCgi.Model.CoroutinePool
import FastCgi.Model.EventLoop
import FastCgi.Model.FastCgiRequests
import FastCgi.Model.FastCgiServer
import FastCgi.Model.FcgxOutput
import FastCgi.Model.FcgxInput
import FastCgi.Model.FcgxWorker
import FastCgi.Model.LibcoTimeout
import FastCgi.Model.Libco
import FastCgi.Model.TcpConnection
import FastCgi.Model.TcpServer
import FastCgi.Model.MucgiServer
import FastCgi.Spec.EventLoop
import FastCgi.Spec.Forms
import FastCgi.Spec.Wire
import FastCgi.Spec.Requests
import FastCgi.Spec.WellFormed
import FastCgi.Spec.Responses
import FastCgi.Spec.Handling
import FastCgi.Spec.KeepAlive
import FastCgi.Spec.Exchanges
import FastCgi.Spec.FcgxInput
import FastCgi.Spec.FcgxOutput
import FastCgi.Spec.FcgxRequest
import FastCgi.Spec.FcgxWorker
import FastCgi.Spec.Libco
import FastCgi.Spec.Pool
import FastCgi.Spec.TcpConnection
import FastCgi.Spec.TcpServer
import FastCgi.Spec.Teardown
import FastCgi.Proofs.PoolInvariant
import FastCgi.Proofs.AcceptProgress
import FastCgi.Proofs.BufferView
import FastCgi.Proofs.CgiccRefinement
import FastCgi.Proofs.ParamsRefinement
import FastCgi.Proofs.CodecRefinement
import FastCgi.Proofs.RespondRefinement
import FastCgi.Proofs.HandlerRefinement
import FastCgi.Proofs.ServerRefinement
import FastCgi.Proofs.CodecReuse
import FastCgi.Proofs.CodecSafety
import FastCgi.Proofs.RequestStreams
import FastCgi.Proofs.DispatchGuards
import FastCgi.Proofs.EventLoop
import FastCgi.Proofs.ExchangeRefinement
import FastCgi.Proofs.FcgxOutput
import FastCgi.Proofs.FcgxAnswer
import FastCgi.Proofs.FcgxCursor
import FastCgi.Proofs.FcgxInput
import FastCgi.Proofs.FcgxRecords
import FastCgi.Proofs.FcgxRequest
import FastCgi.Proofs.FcgxLoss
import FastCgi.Proofs.FcgxWorker
import FastCgi.Proofs.ForkTree
import FastCgi.Proofs.RequestHandling
import FastCgi.Proofs.QueryMaps
import FastCgi.Proofs.FormDelivery
import FastCgi.Proofs.Segmentation
import FastCgi.Proofs.Isolation
import FastCgi.Proofs.KeepAlive
import FastCgi.Proofs.LibcoLinks
import FastCgi.Proofs.LibcoTimeout
import FastCgi.Proofs.LibcoItems
import FastCgi.Proofs.LibcoRoutines
import FastCgi.Proofs.Libco
import FastCgi.Proofs.LibcoScheduling
import FastCgi.Proofs.TcpConnection
import FastCgi.Proofs.TcpServer
import FastCgi.Proofs.MucgiServer
import FastCgi.Proofs.OutputFraming
import FastCgi.Proofs.PoolBounds
import FastCgi.Proofs.RecordStream
import FastCgi.Proofs.ResponseDelivery
import FastCgi.Proofs.ResponseRecords
import FastCgi.Proofs.ResponseIds
import FastCgi.Proofs.TaskOwnership
import FastCgi.Proofs.Teardown
import FastCgi.Proofs.WorkerOutput
