import RsqliteRsync.Client.Retry
import RsqliteRsync.Gateway.Handlers

namespace RsqliteRsync.Client

open Ha Gateway Gateway.SqlGatewayServer Foundation.Schedule

variable {ι : Type*} [DecidableEq ι] {args : ι → HaArgs} {ids : ι → String}

def Call.answeredBy (host : String → Option ι) (call : Call Reply) : Option ι :=
  call.rpcs.getLast?.bind fun rpc ↦ host rpc.endpoint

/-- A client makes the call in a run of the cluster from `f` to `f'`, and each request that succeeds
is answered at some moment in between, by the node behind its endpoint. -/
structure Happens (args : ι → HaArgs) (host : String → Option ι) (f f' : Fenced ι)
    (call : Call Reply) : Prop where
  called : ∃ fromShared config idempotent script, ∃ client : SqlGatewayClient,
    call = client.retryLoop fromShared config idempotent script 0 config.initialBackoffMs
  lasts : Reaches (Fenced.Step args) f f'
  answered : ∀ rpc ∈ call.rpcs, ∀ reply, rpc.answer = .ok reply → ∃ moment i,
    Reaches (Fenced.Step args) f moment ∧ Reaches (Fenced.Step args) moment f' ∧
    host rpc.endpoint = some i ∧
    Serves (moment.cluster.members i).node.world.shared moment.cluster.clock reply

namespace Happens

variable {host : String → Option ι} {f f' : Fenced ι} {call : Call Reply}

theorem served (h : Happens args host f f' call) {reply : Reply} (hok : call.result = .ok reply) :
    ∃ moment i, Reaches (Fenced.Step args) f moment ∧ Reaches (Fenced.Step args) moment f' ∧
      call.answeredBy host = some i ∧
      Serves (moment.cluster.members i).node.world.shared moment.cluster.clock reply := by
  obtain ⟨fromShared, config, idempotent, script, client, hcall⟩ := h.called
  have hsound := client.retryLoop_sound fromShared config idempotent script 0
    config.initialBackoffMs
  rw [← hcall] at hsound
  obtain ⟨rpc, hlast, hanswer⟩ := (hsound.ok_iff reply).mp hok
  obtain ⟨moment, i, hbefore, hafter, hhost, hserves⟩ :=
    h.answered rpc (List.mem_of_getLast? hlast) reply hanswer
  refine ⟨moment, i, hbefore, hafter, ?_, hserves⟩
  rw [Call.answeredBy, hlast]
  exact hhost

end Happens

section Sample

def sampleFenced : Fenced Bool := ⟨sampleCluster, sampleCluster.register⟩

theorem sample_promotion (i : Bool) (now generation : ℕ)
    (h : (i, now, generation) ∈ [(true, 100, 1), (false, 111, 2)]) :
    ∃ m, Reaches (Member.Step sampleArgs now (some ⟨sampleId i, generation, now, 10⟩))
        (sampleCluster.members i) m ∧
      Serves m.node.world.shared now (.execute ⟨1, 1, generation⟩) := by
  have hiterate : ∃ node, HaNode.iterate sampleArgs (.new (sampleId i) false {} 0 true "" none)
      ⟨some (.ok (some ⟨"", 1, now⟩)), .ok now, .ok (some ⟨sampleId i, generation, now, 10⟩),
        fun _ ↦ {}⟩ = .ok node ∧ checkWriteAccess node.world.shared now = .ok generation := by
    rcases List.mem_pair.mp h with hsample | hsample
    · cases hsample
      exact ⟨_, rfl, rfl⟩
    · cases hsample
      exact ⟨_, rfl, rfl⟩
  obtain ⟨node, hok, hwrite⟩ := hiterate
  refine ⟨_, Member.reaches_iterate hok rfl (.inl rfl), @Serves.execute _ _ _ Sql.sampleSqlite []
    ⟨"app.db", some ⟨"INSERT INTO t VALUES (1)", none⟩⟩ _ ?_⟩
  rw [SqlGatewayServer.execute, hwrite]
  rfl

def sampleEndpoint (i : Bool) : String := if i then "http://a:50051" else "http://b:50051"

def sampleHost (ep : String) : Option Bool :=
  if ep = "http://a:50051" then some true else some false

def sampleCall (i : Bool) (reply : Reply) : Call Reply :=
  (SqlGatewayClient.mk none (some (sampleEndpoint i))).retryLoop (fun _ ↦ true) {} false
    (fun _ ↦ ⟨fun _ ↦ false, .error "no resolver", fun _ ↦ true, fun _ ↦ .ok reply⟩) 0 100

theorem sampleCall_happens {f f' : Fenced Bool} {i : Bool} {reply : Reply}
    (h : Reaches (Fenced.Step fun _ ↦ sampleArgs) f f')
    (hserves : Serves (f'.cluster.members i).node.world.shared f'.cluster.clock reply) :
    Happens (fun _ ↦ sampleArgs) sampleHost f f' (sampleCall i reply) ∧
      (sampleCall i reply).result = .ok reply ∧
      (sampleCall i reply).answeredBy sampleHost = some i := by
  have hrpcs : (sampleCall i reply).rpcs = [⟨1, sampleEndpoint i, .ok reply⟩] := by
    rw [sampleCall, SqlGatewayClient.retryLoop]
    rfl
  have hhost : sampleHost (sampleEndpoint i) = some i := by
    cases i <;> decide
  refine ⟨⟨⟨_, _, _, _, _, rfl⟩, h, fun rpc hrpc other hother ↦ ?_⟩, ?_, ?_⟩
  · rw [hrpcs, List.mem_singleton] at hrpc
    cases hrpc
    cases hother
    exact ⟨f', i, h, .refl f', hhost, hserves⟩
  · rw [sampleCall, SqlGatewayClient.retryLoop]
    rfl
  · rw [Call.answeredBy, hrpcs]
    exact hhost

end Sample

end RsqliteRsync.Client
