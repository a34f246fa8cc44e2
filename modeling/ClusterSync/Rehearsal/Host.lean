import ClusterSync.Serving.Router

/-!
# Rehearsing the pages

A machine on which the pages are served and asked for. Its network may not work, and another
program may listen where they are to be served.
-/

namespace ClusterSync.Rehearsal

structure Host where
  /-- Another program listens where the pages are to be served. -/
  addressTaken : Bool
  /-- The machine can reach itself over the network. -/
  loopback : Bool

namespace Host

/-- Metrics with a sample of every family. -/
def sampled : DetailedMetrics :=
  let samples : List Sample :=
    [.eventsEnqueued "kind" "operation", .syncs "kind", .syncErrors "kind" "reason",
      .requeues "kind", .itemsDropped "kind", .queueDepth "kind",
      .storeOperations "operation" "outcome"]
  DetailedMetrics.observe { metrics := samples.foldl Metrics.increment {} } "kind" .zero

/-- Starts serving; the error says why that fails. -/
def serve (h : Host) : Except String Unit :=
  if h.addressTaken then .error Serving.addressTaken else .ok ()

/-- Asks for a page over the network; none if the network does not work. -/
def visit? (h : Host) (ready : Bool) (method target : String) : Option Serving.Reply :=
  if h.loopback then some (Serving.respond ready {} method target) else none

end Host

end ClusterSync.Rehearsal
