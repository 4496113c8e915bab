import VllmRuntime.Verification.BlockHash.Isolation
import VllmRuntime.Verification.Session.Correctness
import VllmRuntime.Verification.CacheHit.Common
import VllmRuntime.Verification.KVCache.Ownership
import VllmRuntime.Verification.KVCache.SparedHits
import VllmRuntime.Verification.KVCache.Events
import VllmRuntime.Verification.KVCache.Capacity
import VllmRuntime.Verification.KVCache.Merge
import VllmRuntime.Verification.EncoderCache.Embeds
import VllmRuntime.Verification.Scheduler.Batch
import VllmRuntime.Verification.EncoderCache.EncoderDecoder
import VllmRuntime.Verification.Scheduler.Order
import VllmRuntime.Verification.FreeQueue.Runs
import VllmRuntime.Verification.Offloading.Runs
import VllmRuntime.Verification.Offloading.Eviction
import VllmRuntime.Verification.Offloading.Cursor
import VllmRuntime.Verification.MultiModal.Order
import VllmRuntime.Verification.MultiModal.Delivery
import VllmRuntime.Verification.MultiModal.Placeholders
import VllmRuntime.Verification.Shm.Layout
import VllmRuntime.Verification.Shm.Exchange
import VllmRuntime.Verification.Broadcast.Timeouts
import VllmRuntime.Verification.InputBatch.Operations
import VllmRuntime.Verification.InputBatch.Processors
import VllmRuntime.Verification.Attention.Ubatches
import VllmRuntime.Verification.Attention.Chunks
import VllmRuntime.Verification.InputBatch.KernelBlocks
import VllmRuntime.Verification.Frontend.Logprobs
import VllmRuntime.Verification.Frontend.HoldBack
import VllmRuntime.Verification.Frontend.Grouping
import VllmRuntime.Verification.Frontend.Reasoning
import VllmRuntime.Verification.SpecDecode.Correctness
import VllmRuntime.Verification.Cudagraph.Dispatch
import VllmRuntime.Verification.SpecDecode.Ngram
import VllmRuntime.Verification.Frontend.FanOut
import VllmRuntime.Verification.Executor.Progress
import VllmRuntime.Verification.Eplb.Correctness
import VllmRuntime.Verification.LoRA.Metadata
import VllmRuntime.Verification.Connector.Multi
import VllmRuntime.Verification.Connector.Notifs
import VllmRuntime.Verification.Connector.Recv
import VllmRuntime.Verification.Connector.BlockMapping
import VllmRuntime.Verification.Connector.Postprocess
