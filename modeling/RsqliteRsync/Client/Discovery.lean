import RsqliteRsync.Client.Backends
import RsqliteRsync.Ha.Cluster

namespace RsqliteRsync.Client

open Ha Protocol Gateway Gateway.SqlGatewayServer Sql Foundation.Schedule Foundation.LeaseRegister

def saysWriter (status : ClusterStatusResponse) : Bool := status.role = 1

theorem saysWriter_getClusterStatus {state : HaSharedState} {nowSecs uptimeSecs : ℕ}
    {databases : Except SyncError (List DatabaseInfo)} {version : String} :
    saysWriter (getClusterStatus state nowSecs databases uptimeSecs version) =
      state.isWriter nowSecs := by
  unfold saysWriter getClusterStatus
  cases state.isWriter nowSecs <;> rfl

variable {ι : Type*} [DecidableEq ι] {args : ι → HaArgs} {ids : ι → String} {c : Cluster ι}
  {moments : Set (Cluster ι)} {i : ι}

def IsWriter (c : Cluster ι) (i : ι) : Prop :=
  (c.members i).node.world.shared.isWriter c.clock = true

/-- The outcome of a probe is what the node says of itself at one of the moments. -/
def Says (moments : Set (Cluster ι)) (i : ι) (outcome : Bool) : Prop :=
  ∃ m ∈ moments, ∃ databases uptimeSecs version, outcome = saysWriter
    (getClusterStatus (m.members i).node.world.shared m.clock databases uptimeSecs version)

omit [DecidableEq ι] in
theorem writer_unique (hids : Function.Injective ids) (hinv : Cluster.Inv ids c) {j : ι}
    (hi : IsWriter c i) (hj : IsWriter c j) : i = j := by
  obtain ⟨L, hL, hholder, hexp⟩ := hinv.of_isWriter hi
  obtain ⟨L', hL', hholder', hexp'⟩ := hinv.of_isWriter hj
  have hsame : L.holderNodeId = L'.holderNodeId := Vouched.holder_eq hL hL' hexp hexp'
  exact hids (hholder.symm.trans (hsame.trans hholder'))

section Discovery

variable {σ : Type} {lib : Sqlite σ} {fromShared : String → Bool} {config : ClientConfig}
  {source : String → String} {database : String} {host : String → Option ι}
  {now : Surroundings Reply} {candidates : List String}

theorem discoverLeader_of_writer (hids : Function.Injective ids) (hstart : c.Starts args ids)
    (hmoments : ∀ m ∈ moments, Reaches (Cluster.Step args) c m ∧ IsWriter m i)
    (hprobes : ∀ ep, now.probe ep = true → ∃ j, host ep = some j ∧ Says moments j true)
    {ep : String} (hep : ep ∈ candidates) (hvalid : fromShared (normalizeEndpoint ep) = true)
    (hprobe : Says moments i (now.probe (normalizeEndpoint ep))) :
    ∃ leader, discoverLeader fromShared (.candidates candidates) now = .ok leader ∧
      fromShared leader = true ∧ host leader = some i := by
  obtain ⟨m, hm, _, _, _, hstatus⟩ := hprobe
  have hwriter : now.probe (normalizeEndpoint ep) = true :=
    (hstatus.trans saysWriter_getClusterStatus).trans (hmoments m hm).2
  have hfound : ((candidates.map normalizeEndpoint).find? fun ep ↦
      fromShared ep && now.probe ep).isSome = true :=
    List.find?_isSome.mpr ⟨_, List.mem_map_of_mem hep, by rw [hvalid, hwriter]; rfl⟩
  obtain ⟨leader, hleader⟩ := Option.isSome_iff_exists.mp hfound
  have hboth := List.find?_some hleader
  obtain ⟨hshared, hsaid⟩ := Bool.and_eq_true_iff.mp hboth
  obtain ⟨j, hj, m', hm', _, _, _, hother⟩ := hprobes leader hsaid
  obtain ⟨hreach, hi⟩ := hmoments m' hm'
  have hinv := Cluster.reaches_inv hreach hstart.inv
  obtain rfl := writer_unique hids hinv hi (hother.trans saysWriter_getClusterStatus).symm
  refine ⟨leader, ?_, hshared, hj⟩
  simp only [discoverLeader, hleader]

section Sample

def nodeOf (ep : String) : Bool := ep = "http://a:50051"

def sampleAround (c : Cluster Bool) : Surroundings Reply where
  probe ep := saysWriter (getClusterStatus (c.members (nodeOf ep)).node.world.shared c.clock
    (.ok []) 0 "")
  resolve := .error "none"
  reachable _ := true
  rpc ep := (Operation.handled sampleSqlite "app.db" (c.members (nodeOf ep)).node.world.shared
    c.clock [] (.execute "INSERT INTO t VALUES (1)" none)).1

def twoCandidates : ClientConfig := { discovery := .candidates ["b:50051", "a:50051"] }

theorem sample_writer : ∃ c, Reaches (Cluster.Step fun _ ↦ sampleArgs) sampleCluster c ∧
    IsWriter c true := by
  have hiterate := @Member.reaches_iterate sampleArgs 100 (some ⟨"a", 1, 100, 10⟩) sampleNode _
    (sampleInput 100 100 {}) rfl rfl (.inl rfl)
  exact ⟨_, @Cluster.reaches_member Bool (fun _ ↦ sampleArgs) sampleCluster _ true _ hiterate,
    rfl⟩

end Sample

end Discovery

end RsqliteRsync.Client
