import RsqliteRsync.Client.Client

namespace RsqliteRsync.Client

open Gateway

variable {α : Type*}

def Rpc.NotLeader (rpc : Rpc α) : Prop :=
  ∃ status, rpc.answer = .error status ∧ isNotLeaderStatus status = true

/-- What holds of a call that has made `attempts` attempts before. -/
structure Call.Sound (config : ClientConfig) (idempotent : Bool) (script : ℕ → Surroundings α)
    (attempts : ℕ) (call : Call α) : Prop where
  bounded : call.attempts ≤ max (attempts + 1) config.maxRetries
  ok_iff : ∀ res, call.result = .ok res ↔
    ∃ rpc, call.rpcs.getLast? = some rpc ∧ rpc.answer = .ok res
  answered : ∀ rpc ∈ call.rpcs, rpc.answer = (script rpc.attempt).rpc rpc.endpoint
  retried : idempotent = false → ∀ rpc ∈ call.rpcs.dropLast, rpc.NotLeader

namespace Call.Sound

variable {config : ClientConfig} {idempotent : Bool} {script : ℕ → Surroundings α}
  {attempts backoffMs : ℕ} {client : SqlGatewayClient}

theorem unsent (e : ClientError) :
    Call.Sound config idempotent script attempts ⟨.error e, client, attempts + 1, [], []⟩ where
  bounded := le_max_left ..
  ok_iff _ := ⟨nofun, nofun⟩
  answered := nofun
  retried _ := nofun

theorem sent {rpc : Rpc α} {result : Except ClientError α}
    (hanswer : rpc.answer = (script rpc.attempt).rpc rpc.endpoint)
    (hok : ∀ res, result = .ok res ↔ rpc.answer = .ok res) :
    Call.Sound config idempotent script attempts
      ⟨result, client, attempts + 1, [rpc], []⟩ where
  bounded := le_max_left ..
  ok_iff res := by simpa using hok res
  answered := by simpa using hanswer
  retried _ := nofun

theorem after {call : Call α} {rpcs : List (Rpc α)}
    (h : call.Sound config idempotent script (attempts + 1))
    (hleft : attempts + 1 < config.maxRetries)
    (hfailed : ∀ rpc ∈ rpcs, ∃ status, rpc.answer = .error status)
    (hanswer : ∀ rpc ∈ rpcs, rpc.answer = (script rpc.attempt).rpc rpc.endpoint)
    (hretried : idempotent = false → ∀ rpc ∈ rpcs, rpc.NotLeader) :
    (call.after rpcs backoffMs).Sound config idempotent script attempts where
  bounded := by
    have hbounded := h.bounded
    simp only [Call.after]
    omega
  ok_iff res := by
    rw [Call.after, h.ok_iff res, List.getLast?_append]
    cases hlast : call.rpcs.getLast? with
    | some rpc => simp
    | none =>
      refine iff_of_false (by simp) ?_
      rintro ⟨rpc, hrpc, hok⟩
      obtain ⟨status, herror⟩ := hfailed rpc (List.mem_of_getLast? (by simpa using hrpc))
      cases herror.symm.trans hok
  answered rpc hrpc := (List.mem_append.mp hrpc).elim (hanswer rpc) (h.answered rpc)
  retried hidem rpc hrpc := by
    rcases List.eq_nil_or_concat' call.rpcs with hnil | ⟨init, last, hcons⟩
    · rw [Call.after, hnil, List.append_nil] at hrpc
      exact hretried hidem rpc (List.mem_of_mem_dropLast hrpc)
    · have hne : call.rpcs ≠ [] := by simp [hcons]
      rw [Call.after, List.dropLast_append_of_ne_nil hne] at hrpc
      exact (List.mem_append.mp hrpc).elim (hretried hidem rpc) (h.retried hidem rpc)

end Call.Sound

theorem isNotLeader_of_shouldRetry {status : Status} (h : shouldRetry false status = true) :
    isNotLeaderStatus status = true := by
  simpa [shouldRetry] using h

/-- By induction on the loop: an attempt ends the call or is followed by a sound rest. -/
theorem SqlGatewayClient.retryLoop_sound (fromShared : String → Bool) (config : ClientConfig)
    (idempotent : Bool) (script : ℕ → Surroundings α) (client : SqlGatewayClient)
    (attempts backoffMs : ℕ) :
    (client.retryLoop fromShared config idempotent script attempts backoffMs).Sound config
      idempotent script attempts := by
  fun_induction retryLoop fromShared config idempotent script client attempts backoffMs with
  | case1 client attempts backoffMs e client' hconnect hinvalid => exact .unsent e
  | case2 client attempts backoffMs e client' hconnect hvalid hmax => exact .unsent _
  | case3 client attempts backoffMs e client' hconnect hvalid hleft ih =>
    exact ih.after (not_le.mp hleft) nofun nofun nofun
  | case4 client attempts backoffMs ep client' hconnect res hrpc =>
    exact .sent hrpc.symm fun res' ↦ by simp
  | case5 client attempts backoffMs ep client' hconnect status hrpc hstop =>
    exact .sent hrpc.symm fun res' ↦ by simp
  | case6 client attempts backoffMs ep client' hconnect status hrpc hretry hmax =>
    exact .sent hrpc.symm fun res' ↦ by simp
  | case7 client attempts backoffMs ep client' hconnect status hrpc hretry hleft ih =>
    refine ih.after (not_le.mp hleft) ?_ ?_ ?_
    · rintro rpc hmem
      cases List.mem_singleton.mp hmem
      exact ⟨status, rfl⟩
    · rintro rpc hmem
      cases List.mem_singleton.mp hmem
      exact hrpc.symm
    · rintro rfl rpc hmem
      cases List.mem_singleton.mp hmem
      exact ⟨status, rfl, isNotLeader_of_shouldRetry (by simpa using hretry)⟩

theorem Call.Sound.applied_le_one {config : ClientConfig} {script : ℕ → Surroundings α}
    {attempts : ℕ} {call : Call α} (h : call.Sound config false script attempts)
    (applies : ℕ → String → Bool)
    (hserver : ∀ n ep status, (script n).rpc ep = .error status →
      isNotLeaderStatus status = true → applies n ep = false) :
    (call.rpcs.filter fun rpc ↦ applies rpc.attempt rpc.endpoint).length ≤ 1 := by
  have hnone (rpc : Rpc α) (hrpc : rpc ∈ call.rpcs.dropLast) :
      applies rpc.attempt rpc.endpoint = false := by
    obtain ⟨status, hstatus, hleader⟩ := h.retried rfl rpc hrpc
    have hanswer := h.answered rpc (List.mem_of_mem_dropLast hrpc)
    exact hserver _ _ status (hanswer.symm.trans hstatus) hleader
  rcases List.eq_nil_or_concat' call.rpcs with hnil | ⟨init, last, hrpcs⟩
  · simp [hnil]
  · have hinit : init.filter (fun rpc ↦ applies rpc.attempt rpc.endpoint) = [] := by
      refine List.filter_eq_nil_iff.mpr fun rpc hrpc ↦ ?_
      simpa using hnone rpc (by simpa [hrpcs] using hrpc)
    rw [hrpcs, List.filter_append, hinit, List.nil_append]
    exact List.length_filter_le ..

/-- A call makes at most `max_retries` attempts, and one if that is 0. It succeeds exactly when the
last request it sent was answered with success. A call that is not idempotent goes on only after a
`NOT_LEADER`, so that its request is applied at most once. -/
theorem retry_loop_at_most_once (fromShared : String → Bool) (config : ClientConfig)
    (idempotent : Bool) (script : ℕ → Surroundings α) (client : SqlGatewayClient) :
    let call := client.retryLoop fromShared config idempotent script 0 config.initialBackoffMs
    call.attempts ≤ max 1 config.maxRetries ∧
    (∀ res, call.result = .ok res ↔
      ∃ rpc, call.rpcs.getLast? = some rpc ∧ rpc.answer = .ok res) ∧
    (idempotent = false → (∀ rpc ∈ call.rpcs.dropLast, rpc.NotLeader) ∧
      ∀ applies : ℕ → String → Bool,
        (∀ n ep status, (script n).rpc ep = .error status → isNotLeaderStatus status = true →
          applies n ep = false) →
        (call.rpcs.filter fun rpc ↦ applies rpc.attempt rpc.endpoint).length ≤ 1) := by
  have hsound := client.retryLoop_sound fromShared config idempotent script 0
    config.initialBackoffMs
  refine ⟨hsound.bounded, hsound.ok_iff, ?_⟩
  rintro rfl
  exact ⟨hsound.retried rfl, hsound.applied_le_one⟩

section Sample

def sampleScript (_ : ℕ) : Surroundings Unit where
  probe _ := false
  resolve := .error "no resolver"
  reachable _ := true
  rpc ep := if ep = "http://b:50051" then .ok () else
    .error (SqlGatewayServer.notLeaderStatus
      ⟨"a", .replica, 0, some "b", some "http://b:50051", none, false⟩)

end Sample

theorem retry_loop_at_most_once_redirected :
    (SqlGatewayClient.new.retryLoop (fun _ ↦ true) {} false sampleScript 0 100).rpcs.map
        (fun rpc ↦ (rpc.attempt, rpc.endpoint)) =
      [(1, "http://127.0.0.1:50051"), (2, "http://b:50051")] ∧
    ((SqlGatewayClient.new.retryLoop (fun _ ↦ true) {} false sampleScript 0 100).rpcs.filter
      fun rpc ↦ decide (rpc.endpoint = "http://b:50051")).length ≤ 1 := by
  refine ⟨by decide +kernel, ((retry_loop_at_most_once (fun _ ↦ true) {} false sampleScript
    .new).2.2 rfl).2 (fun _ ep ↦ decide (ep = "http://b:50051")) ?_⟩
  intro n ep status hrpc _
  rw [decide_eq_false_iff_not]
  rintro rfl
  cases hrpc

end RsqliteRsync.Client
