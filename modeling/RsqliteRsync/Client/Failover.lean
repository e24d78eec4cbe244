import RsqliteRsync.Client.Client

namespace RsqliteRsync.Client

open Gateway

variable {α : Type*} {fromShared : String → Bool} {config : ClientConfig} {leader ep : String}
  {now : Surroundings α}

/-- Discovery finds `leader`, which accepts connections and answers every request. Every other
endpoint is malformed, fails to connect or answers `Unavailable`; an open channel whose server
cannot be connected to any more answers `Unavailable` as well. -/
structure Surroundings.Settled (fromShared : String → Bool) (config : ClientConfig)
    (leader : String) (now : Surroundings α) : Prop where
  discovered : discoverLeader fromShared config.discovery now = .ok leader
  wellFormed : fromShared leader = true
  connects : now.reachable leader = true
  answers : ∃ res, now.rpc leader = .ok res
  others : ∀ ep, ep ≠ leader → fromShared ep = false ∨ now.reachable ep = false ∨
    ∃ status, now.rpc ep = .error status ∧ status.code = .unavailable
  unreachable : ∀ ep, now.reachable ep = false →
    ∃ status, now.rpc ep = .error status ∧ status.code = .unavailable

theorem Surroundings.Settled.unavailable (h : now.Settled fromShared config leader)
    (hne : ep ≠ leader) (hep : fromShared ep = true) :
    ∃ status, now.rpc ep = .error status ∧ status.code = .unavailable := by
  rcases h.others ep hne with hbad | hdown | hunavailable
  · cases hep.symm.trans hbad
  · exact h.unreachable ep hdown
  · exact hunavailable

theorem not_shouldRetry_of_unavailable {status : Status} (h : status.code = .unavailable) :
    shouldRetry false status = false := by
  simp [shouldRetry, isNotLeaderStatus, h]

namespace SqlGatewayClient

variable {client client' : SqlGatewayClient} {script : ℕ → Surroundings α}
  {attempts backoffMs : ℕ}

def execute (fromShared : String → Bool) (config : ClientConfig) (script : ℕ → Surroundings α)
    (client : SqlGatewayClient) : Call α :=
  client.retryLoop fromShared config false script 0 config.initialBackoffMs

/-- The states of a client after any calls: `execute` and `batch` run the loop with
`idempotent = false`, the other operations with `true`. -/
inductive Reached (fromShared : String → Bool) (config : ClientConfig) : SqlGatewayClient → Prop
  | new : Reached fromShared config .new
  | call {β : Type} {client : SqlGatewayClient} (idempotent : Bool) (script : ℕ → Surroundings β) :
    Reached fromShared config client → Reached fromShared config
      (client.retryLoop fromShared config idempotent script 0 config.initialBackoffMs).client

def Linked (fromShared : String → Bool) (client : SqlGatewayClient) : Prop :=
  ∀ ep, client.tonicClient = some ep → client.currentEndpoint = some ep ∧ fromShared ep = true

theorem linked_of_closed (h : client.tonicClient = none) : client.Linked fromShared := by
  intro ep hep
  cases h.symm.trans hep

theorem linked_processLeaderHeader (status : Status) :
    (client.processLeaderHeader status).Linked fromShared := by
  apply linked_of_closed
  unfold processLeaderHeader
  split <;> rfl

theorem getOrConnect_linked {found : Except ClientError String}
    (hconnect : client.getOrConnect fromShared config now = (found, client'))
    (h : client.Linked fromShared) : client'.Linked fromShared := by
  rw [show client' = (client.getOrConnect fromShared config now).2 by rw [hconnect]]
  fun_cases getOrConnect fromShared config client now with
  | case1 channel hopen => exact h
  | case2 hclosed found e hfound => exact h
  | case3 hclosed found ep hfound hbad => exact h
  | case4 hclosed found ep hfound hbad hdown => exact h
  | case5 hclosed found ep hfound hbad hdown =>
    intro ep' hep'
    cases hep'
    exact ⟨rfl, by simpa using hbad⟩

theorem retryLoop_linked {idempotent : Bool} (h : client.Linked fromShared) :
    (client.retryLoop fromShared config idempotent script attempts backoffMs).client.Linked
      fromShared := by
  fun_induction retryLoop fromShared config idempotent script client attempts backoffMs with
  | case1 client attempts backoffMs e client' hconnect hinvalid =>
    exact getOrConnect_linked hconnect h
  | case2 client attempts backoffMs e client' hconnect hvalid hmax =>
    exact getOrConnect_linked hconnect h
  | case3 client attempts backoffMs e client' hconnect hvalid hleft ih =>
    exact ih (linked_of_closed rfl)
  | case4 client attempts backoffMs ep client' hconnect res hrpc =>
    exact getOrConnect_linked hconnect h
  | case5 client attempts backoffMs ep client' hconnect status hrpc hstop =>
    exact getOrConnect_linked hconnect h
  | case6 client attempts backoffMs ep client' hconnect status hrpc hretry hmax =>
    exact getOrConnect_linked hconnect h
  | case7 client attempts backoffMs ep client' hconnect status hrpc hretry hleft ih =>
    exact ih (linked_processLeaderHeader status)

theorem Reached.linked (h : Reached fromShared config client) : client.Linked fromShared := by
  induction h with
  | new => exact linked_of_closed rfl
  | call idempotent script _ ih => exact retryLoop_linked ih

theorem getOrConnect_open (h : client.tonicClient = some ep) :
    client.getOrConnect fromShared config now = (.ok ep, client) := by
  simp [getOrConnect, h]

theorem getOrConnect_malformed (h : fromShared ep = false) :
    (⟨some ep, none⟩ : SqlGatewayClient).getOrConnect fromShared config now =
      (.error (.invalidEndpoint ep), ⟨some ep, none⟩) := by
  simp [getOrConnect, h]

theorem getOrConnect_down (h : fromShared ep = true) (hdown : now.reachable ep = false) :
    (⟨some ep, none⟩ : SqlGatewayClient).getOrConnect fromShared config now =
      (.error (.connect ep), ⟨some ep, none⟩) := by
  simp [getOrConnect, h, hdown]

theorem getOrConnect_up (h : fromShared ep = true) (hup : now.reachable ep = true) :
    (⟨some ep, none⟩ : SqlGatewayClient).getOrConnect fromShared config now =
      (.ok ep, ⟨some ep, some ep⟩) := by
  simp [getOrConnect, h, hup]

theorem getOrConnect_reset (h : now.Settled fromShared config leader) :
    (⟨none, none⟩ : SqlGatewayClient).getOrConnect fromShared config now =
      (.ok leader, ⟨some leader, some leader⟩) := by
  simp [getOrConnect, h.discovered, h.wellFormed, h.connects]

section Attempt

variable (idempotent : Bool) (backoffMs)

theorem retryLoop_ok (h : (script (attempts + 1)).Settled fromShared config leader)
    (hconnect : client.getOrConnect fromShared config (script (attempts + 1)) =
      (.ok leader, client')) :
    ∃ res, (client.retryLoop fromShared config idempotent script attempts backoffMs).result =
      .ok res := by
  obtain ⟨res, hres⟩ := h.answers
  refine ⟨res, ?_⟩
  rw [retryLoop, hconnect]
  simp [hres]

theorem retryLoop_unavailable (h : (script (attempts + 1)).Settled fromShared config leader)
    (hconnect : client.getOrConnect fromShared config (script (attempts + 1)) =
      (.ok ep, client')) (hne : ep ≠ leader) (hep : fromShared ep = true) :
    ∃ e, (client.retryLoop fromShared config false script attempts backoffMs).result = .error e ∧
      (client.retryLoop fromShared config false script attempts backoffMs).client = client' := by
  obtain ⟨status, hstatus, hcode⟩ := h.unavailable hne hep
  refine ⟨.rpc status, ?_⟩
  rw [retryLoop, hconnect]
  simp [hstatus, not_shouldRetry_of_unavailable hcode]

end Attempt

/-- The client remembers an endpoint other than the leader that it keeps: one with an open channel,
one that it cannot even parse, or one that still accepts connections. -/
def Stuck (fromShared : String → Bool) (now : Surroundings α) (leader : String)
    (client : SqlGatewayClient) : Prop :=
  ∃ ep, ep ≠ leader ∧ client.currentEndpoint = some ep ∧
    (client.tonicClient = some ep ∨ fromShared ep = false ∨ now.reachable ep = true)

section Settled

variable (hscript : ∀ n, (script n).Settled fromShared config leader)

include hscript

theorem execute_of_not_stuck (hlinked : client.Linked fromShared) (hmax : 2 ≤ config.maxRetries)
    (h : ¬ client.Stuck fromShared (script 1) leader) :
    ∃ res, (client.execute fromShared config script).result = .ok res := by
  obtain ⟨current, _ | channel⟩ := client
  · obtain _ | ep := current
    · exact retryLoop_ok _ _ (hscript 1) (getOrConnect_reset (hscript 1))
    by_cases hleader : ep = leader
    · subst hleader
      exact retryLoop_ok _ _ (hscript 1)
        (getOrConnect_up (hscript 1).wellFormed (hscript 1).connects)
    have hgood : fromShared ep = true := by
      by_contra hbad
      exact h ⟨ep, hleader, rfl, .inr (.inl (by simpa using hbad))⟩
    have hdown : (script 1).reachable ep = false := by
      by_contra hup
      exact h ⟨ep, hleader, rfl, .inr (.inr (by simpa using hup))⟩
    obtain ⟨res, hres⟩ := retryLoop_ok
      (nextBackoff config.initialBackoffMs config.maxBackoffMs) false (hscript 2)
      (getOrConnect_reset (hscript 2))
    refine ⟨res, ?_⟩
    rw [execute, retryLoop, getOrConnect_down hgood hdown]
    simpa [ClientError.isInvalidEndpoint, Nat.not_le.mpr hmax, Call.after, resetConnection]
      using hres
  · have hleader : channel = leader := by
      by_contra hne
      exact h ⟨channel, hne, (hlinked channel rfl).1, .inl rfl⟩
    subst hleader
    exact retryLoop_ok _ _ (hscript 1) (getOrConnect_open rfl)

theorem execute_unavailable (now' : Surroundings α)
    (hconnect : client.getOrConnect fromShared config (script 1) = (.ok ep, ⟨some ep, some ep⟩))
    (hne : ep ≠ leader) (hep : fromShared ep = true) :
    (∃ e, (client.execute fromShared config script).result = .error e) ∧
      (client.execute fromShared config script).client.Stuck fromShared now' leader := by
  obtain ⟨e, hresult, hclient⟩ := retryLoop_unavailable config.initialBackoffMs (hscript 1)
    hconnect hne hep
  refine ⟨⟨e, hresult⟩, ep, hne, ?_⟩
  rw [execute, hclient]
  exact ⟨rfl, .inl rfl⟩

/-- A stuck client stays stuck: its call fails with the endpoint still remembered, over a channel
that is now open or under a name that is malformed. -/
theorem execute_of_stuck (hlinked : client.Linked fromShared) (now' : Surroundings α)
    (h : client.Stuck fromShared (script 1) leader) :
    (∃ e, (client.execute fromShared config script).result = .error e) ∧
      (client.execute fromShared config script).client.Stuck fromShared now' leader := by
  obtain ⟨current, channel⟩ := client
  obtain ⟨ep, hne, rfl, hkept⟩ := h
  obtain _ | channel := channel
  · cases hgood : fromShared ep with
    | true =>
      have hup : (script 1).reachable ep = true := by simpa [hgood] using hkept
      exact execute_unavailable hscript now' (getOrConnect_up hgood hup) hne hgood
    | false =>
      rw [execute, retryLoop, getOrConnect_malformed hgood]
      exact ⟨⟨_, rfl⟩, ep, hne, rfl, .inr (.inl hgood)⟩
  · obtain ⟨hcurrent, hgood⟩ := hlinked channel rfl
    cases hcurrent
    exact execute_unavailable hscript now' (getOrConnect_open rfl) hne hgood

end Settled

def Heals (fromShared : String → Bool) (config : ClientConfig)
    (script₁ script₂ : ℕ → Surroundings α) (client : SqlGatewayClient) : Prop :=
  let first := client.execute fromShared config script₁
  (∃ res, first.result = .ok res) ∨
    ∃ res, (first.client.execute fromShared config script₂).result = .ok res

theorem not_heals_of_stuck {script₁ script₂ : ℕ → Surroundings α}
    (h₁ : ∀ n, (script₁ n).Settled fromShared config leader)
    (h₂ : ∀ n, (script₂ n).Settled fromShared config leader) (hlinked : client.Linked fromShared)
    (h : client.Stuck fromShared (script₁ 1) leader) :
    ¬ client.Heals fromShared config script₁ script₂ := by
  obtain ⟨⟨e₁, he₁⟩, hstuck⟩ := execute_of_stuck h₁ hlinked (script₂ 1) h
  obtain ⟨⟨e₂, he₂⟩, -⟩ := execute_of_stuck h₂ (retryLoop_linked hlinked) (script₂ 1) hstuck
  rintro (⟨res, hres⟩ | ⟨res, hres⟩)
  · cases he₁.symm.trans hres
  · cases he₂.symm.trans hres

/-- Once a leader has settled, one of the next two `execute` calls succeeds exactly when the client
is not stuck with another endpoint. -/
theorem heals_iff {script₁ script₂ : ℕ → Surroundings α}
    (hreached : Reached fromShared config client) (hmax : 2 ≤ config.maxRetries)
    (h₁ : ∀ n, (script₁ n).Settled fromShared config leader)
    (h₂ : ∀ n, (script₂ n).Settled fromShared config leader) :
    client.Heals fromShared config script₁ script₂ ↔
      ¬ client.Stuck fromShared (script₁ 1) leader := by
  constructor
  · intro h hstuck
    exact not_heals_of_stuck h₁ h₂ hreached.linked hstuck h
  · intro h
    exact .inl (execute_of_not_stuck h₁ hreached.linked hmax h)

section Sample

def pairConfig : ClientConfig where
  discovery := .candidates ["http://a:50051", "http://b:50051"]
  maxRetries := 2

def onlyWriter (leader : String) : Surroundings Unit where
  probe ep := ep == leader
  resolve := .error "no resolver"
  reachable ep := ep == leader
  rpc ep := if ep == leader then .ok () else .error ⟨.unavailable, "transport error", []⟩

theorem onlyWriter_settled (h : leader = "http://a:50051" ∨ leader = "http://b:50051") :
    (onlyWriter leader).Settled (fun _ ↦ true) pairConfig leader where
  discovered := by rcases h with rfl | rfl <;> rfl
  wellFormed := rfl
  connects := by simp [onlyWriter]
  answers := ⟨(), by simp [onlyWriter]⟩
  others ep hne := .inr (.inl (by simpa [onlyWriter] using hne))
  unreachable ep hdown := by
    have hne : ep ≠ leader := by simpa [onlyWriter] using hdown
    exact ⟨⟨.unavailable, "transport error", []⟩, by simp [onlyWriter, hne], rfl⟩

def redirecting : Surroundings Unit where
  probe _ := false
  resolve := .error "no resolver"
  reachable ep := ep != "http://c:50051"
  rpc _ := .error (SqlGatewayServer.notLeaderStatus
    ⟨"a", .replica, 0, some "c", some "http://c:50051", none, false⟩)

def redirected : SqlGatewayClient :=
  (SqlGatewayClient.new.execute (fun _ ↦ true) pairConfig fun _ ↦ redirecting).client

def connected : SqlGatewayClient :=
  (SqlGatewayClient.new.execute (fun _ ↦ true) pairConfig
    fun _ ↦ onlyWriter "http://a:50051").client

end Sample

theorem heals_redirected :
    redirected.currentEndpoint = some "http://c:50051" ∧
    redirected.Heals (fun _ ↦ true) pairConfig (fun _ ↦ onlyWriter "http://b:50051")
      (fun _ ↦ onlyWriter "http://b:50051") := by
  have hcurrent : redirected.currentEndpoint = some "http://c:50051" := by decide +kernel
  have hclosed : redirected.tonicClient = none := by decide +kernel
  refine ⟨hcurrent, (heals_iff (.call false _ .new) (by decide)
    (fun _ ↦ onlyWriter_settled (.inr rfl)) (fun _ ↦ onlyWriter_settled (.inr rfl))).mpr ?_⟩
  rintro ⟨ep, -, hep, hopen | hbad | hup⟩
  · cases hclosed.symm.trans hopen
  · cases hbad
  · cases hcurrent.symm.trans hep
    exact absurd hup (by decide)

/-- After `a` has gone down under an open channel and `b` has taken over, both calls fail. -/
theorem not_heals_connected :
    Reached (fun _ ↦ true) pairConfig connected ∧
    (onlyWriter "http://b:50051").Settled (fun _ ↦ true) pairConfig "http://b:50051" ∧
    ¬ connected.Heals (fun _ ↦ true) pairConfig (fun _ ↦ onlyWriter "http://b:50051")
      (fun _ ↦ onlyWriter "http://b:50051") := by
  have hreached : Reached (fun _ ↦ true) pairConfig connected := .call false _ .new
  have hopen : connected.tonicClient = some "http://a:50051" := by decide +kernel
  refine ⟨hreached, onlyWriter_settled (.inr rfl), not_heals_of_stuck
    (fun _ ↦ onlyWriter_settled (.inr rfl)) (fun _ ↦ onlyWriter_settled (.inr rfl))
    hreached.linked ⟨_, ?_, (hreached.linked _ hopen).1, .inl hopen⟩⟩
  decide

end SqlGatewayClient

end RsqliteRsync.Client
