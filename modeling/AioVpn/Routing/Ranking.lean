import AioVpn.Text.JavaString
import Mathlib.Data.List.Sort

/-!
# Ranking the servers

The servers of the API, their latencies, the cache of a ranking, and the order in
which Smart Auto tries its candidates.

A latency is what `measureLatency` returned, `Long.MAX_VALUE` for a server that did
not answer.  The ranking keeps the servers that answered, the fastest first, and is
valid in the cache for two minutes.  The candidates are the first four of the ranking,
with the last good server in front unless a fresh choice was asked for.
-/

namespace AioVpn

/-- `WgServerDto`. -/
structure WgServerDto where
  id : ℤ
  name : JString
  ip : JString
  label : Option JString := none
  deriving DecidableEq

/-- `displayName`. -/
def WgServerDto.displayName (s : WgServerDto) : JString := s.label.getD s.name

/-- `ServerScore`. -/
structure ServerScore where
  server : WgServerDto
  latencyMs : ℕ
  success : Bool
  deriving DecidableEq

/-- `LastGoodServer`. -/
structure LastGoodServer where
  serverId : ℤ
  serverLabel : JString
  deriving DecidableEq

/-- `ServerRankingCache`. -/
structure ServerRankingCache where
  rankedServers : Option (List ServerScore) := none
  lastUpdated : ℤ := 0

namespace ServerRankingCache

/-- `isValid`. -/
def isValid (now : ℤ) (c : ServerRankingCache) : Bool := now - c.lastUpdated < 120000

/-- `set`. -/
def set (now : ℤ) (data : List ServerScore) : ServerRankingCache := ⟨some data, now⟩

/-- The ranking `getOrBuildRankings` takes from the cache, if it takes one. -/
def cached (now : ℤ) (c : ServerRankingCache) : Option (List ServerScore) :=
  if c.isValid now then c.rankedServers else none

end ServerRankingCache

namespace SmartRoutingService

/-- `Long.MAX_VALUE`. -/
def longMax : ℕ := 9223372036854775807

/-- The score of a server that was measured. -/
def score (server : WgServerDto) (latency : ℕ) : ServerScore :=
  ⟨server, latency, decide (latency < longMax)⟩

/-- `rankServers`; `latency i` is what was measured for the `i`-th server. -/
def rankServers (latency : ℕ → ℕ) (servers : List WgServerDto) : List ServerScore :=
  ((servers.zipIdx.map fun x => score x.1 (latency x.2)).filter fun s => s.success).insertionSort
    fun a b => a.latencyMs ≤ b.latencyMs

end SmartRoutingService

namespace HomeActivity

/-- `distinctBy { it.id }`. -/
def distinctById : List WgServerDto → List WgServerDto
  | [] => []
  | s :: rest => s :: (distinctById rest).filter fun t => t.id ≠ s.id

/-- `buildCandidateOrder`. -/
def buildCandidateOrder (servers : List WgServerDto) (ranked : List ServerScore)
    (lastGood : Option LastGoodServer) : List WgServerDto :=
  let rankedServers := ranked.map ServerScore.server
  match lastGood with
  | none => rankedServers
  | some lastGood =>
      match servers.find? fun s => s.id = lastGood.serverId with
      | none => rankedServers
      | some preferred =>
          distinctById (preferred :: rankedServers.filter fun s => s.id ≠ preferred.id)

/-- `orderedCandidates` of a fresh choice. -/
def freshCandidates (ranked : List ServerScore) : List WgServerDto :=
  (distinctById (ranked.map ServerScore.server)).take 4

/-- `orderedCandidates` otherwise. -/
def usualCandidates (servers : List WgServerDto) (ranked : List ServerScore)
    (lastGood : Option LastGoodServer) : List WgServerDto :=
  (buildCandidateOrder servers ranked lastGood).take 4

/-! ## There is always a candidate -/

theorem distinctById_ne_nil {l : List WgServerDto} (h : l ≠ []) : distinctById l ≠ [] := by
  cases l with
  | nil => exact absurd rfl h
  | cons s rest => simp [distinctById]

theorem take_ne_nil {l : List WgServerDto} (h : l ≠ []) : l.take 4 ≠ [] := by
  cases l with
  | nil => exact absurd rfl h
  | cons s rest => simp

theorem freshCandidates_ne_nil {ranked : List ServerScore} (h : ranked ≠ []) :
    freshCandidates ranked ≠ [] :=
  take_ne_nil (distinctById_ne_nil (by simpa using h))

theorem usualCandidates_ne_nil (servers : List WgServerDto) {ranked : List ServerScore}
    (lastGood : Option LastGoodServer) (h : ranked ≠ []) :
    usualCandidates servers ranked lastGood ≠ [] := by
  refine take_ne_nil ?_
  unfold buildCandidateOrder
  cases lastGood with
  | none => simpa using h
  | some lastGood =>
    dsimp only
    cases servers.find? fun s => s.id = lastGood.serverId with
    | none => simpa using h
    | some preferred => exact distinctById_ne_nil (by simp)

end HomeActivity
end AioVpn
