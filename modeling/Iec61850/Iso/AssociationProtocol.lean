import Iec61850.Lib.Simulation

/-! What an association is for: each side gets what the other side sends, in the order in which it
is sent, and a release waits for all of it. -/

namespace Iec61850.Association

/-- What the two sides send to each other. -/
inductive Message (α : Type)
  | connectionRequest
  | connectionConfirm
  | connect (payload : α)
  | accept (payload : α)
  | data (payload : α)
  | finish
  | disconnect

inductive ClientPhase
  | connecting
  | associating
  | associated
  | releasing
  | closed
  | failed

/-- How many messages a client is still to send or to give up before it has an association. -/
def ClientPhase.rank : ClientPhase → Nat
  | .connecting => 3
  | .associating => 1
  | _ => 0

inductive ServerPhase
  | waiting
  | connected
  | associated
  | stopped

/-- What is on its way, and all that has been given to each side to be sent and that it has got. The
payload of the associate request has been given to the client from the start. -/
structure State (α : Type) where
  client : ClientPhase
  server : ServerPhase
  toServer : List (Message α)
  toClient : List (Message α)
  clientSent : List α
  serverSent : List α
  clientGot : List α
  serverGot : List α

/-- A message that the server reads is answered if there is a response. -/
inductive Action (α : Type)
  | serverReads (response : Option α)
  | serverSends (payload : α)
  | clientReads
  | clientSends (payload : α)
  | clientReleases

variable {α : Type} (admits : Bool) (request : α)

namespace State

def start : State α where
  client := .connecting
  server := .waiting
  toServer := [.connectionRequest]
  toClient := []
  clientSent := [request]
  serverSent := []
  clientGot := []
  serverGot := []

/-- One step of one side. The server lets the client in or not. -/
inductive Step (s : State α) : Action α → State α → Prop
  | confirm {response : Option α} {rest : List (Message α)} :
    s.server = .waiting → s.toServer = .connectionRequest :: rest →
    Step s (.serverReads response)
      { s with
        server := .connected
        toServer := rest
        toClient := s.toClient ++ [.connectionConfirm] }
  | accept {payload response : α} {rest : List (Message α)} : admits = true →
    s.server = .connected → s.toServer = .connect payload :: rest →
    Step s (.serverReads (some response))
      { s with
        server := .associated
        toServer := rest
        toClient := s.toClient ++ [.accept response]
        serverSent := s.serverSent ++ [response]
        serverGot := s.serverGot ++ [payload] }
  | refuse {payload : α} {response : Option α} {rest : List (Message α)} : admits = false →
    s.server = .connected → s.toServer = .connect payload :: rest →
    Step s (.serverReads response) { s with server := .stopped, toServer := rest }
  | serve {payload : α} {response : Option α} {rest : List (Message α)} :
    s.server = .associated → s.toServer = .data payload :: rest →
    Step s (.serverReads response)
      { s with
        toServer := rest
        toClient := s.toClient ++ (response.map .data).toList
        serverSent := s.serverSent ++ response.toList
        serverGot := s.serverGot ++ [payload] }
  | disconnect {response : Option α} {rest : List (Message α)} :
    s.server = .associated → s.toServer = .finish :: rest →
    Step s (.serverReads response)
      { s with server := .stopped, toServer := rest, toClient := s.toClient ++ [.disconnect] }
  | serverSend {payload : α} : s.server = .associated →
    Step s (.serverSends payload)
      { s with
        toClient := s.toClient ++ [.data payload]
        serverSent := s.serverSent ++ [payload] }
  | connect {rest : List (Message α)} :
    s.client = .connecting → s.toClient = .connectionConfirm :: rest →
    Step s .clientReads
      { s with
        client := .associating
        toClient := rest
        toServer := s.toServer ++ [.connect request] }
  | associate {response : α} {rest : List (Message α)} :
    s.client = .associating → s.toClient = .accept response :: rest →
    Step s .clientReads
      { s with
        client := .associated
        toClient := rest
        clientGot := s.clientGot ++ [response] }
  | fail : s.client = .associating → s.toClient = [] → s.server = .stopped →
    Step s .clientReads { s with client := .failed }
  | receive {payload : α} {rest : List (Message α)} :
    s.client = .associated ∨ s.client = .releasing → s.toClient = .data payload :: rest →
    Step s .clientReads { s with toClient := rest, clientGot := s.clientGot ++ [payload] }
  | close {rest : List (Message α)} :
    s.client = .releasing → s.toClient = .disconnect :: rest →
    Step s .clientReads { s with client := .closed, toClient := rest }
  | clientSend {payload : α} : s.client = .associated →
    Step s (.clientSends payload)
      { s with
        toServer := s.toServer ++ [.data payload]
        clientSent := s.clientSent ++ [payload] }
  | release : s.client = .associated →
    Step s .clientReleases { s with client := .releasing, toServer := s.toServer ++ [.finish] }

/-- What there can be at each time: what is on its way is what the other side has not got. -/
inductive Reached : State α → Prop
  | requested : Reached (start request)
  | confirmed :
    Reached ⟨.connecting, .connected, [], [.connectionConfirm], [request], [], [], []⟩
  | asked : Reached ⟨.associating, .connected, [.connect request], [], [request], [], [], []⟩
  | refused : admits = false → Reached ⟨.associating, .stopped, [], [], [request], [], [], []⟩
  | failed : admits = false → Reached ⟨.failed, .stopped, [], [], [request], [], [], []⟩
  | accepted (response : α) (toClient : List α) : admits = true →
    Reached ⟨.associating, .associated, [], .accept response :: toClient.map .data, [request],
      response :: toClient, [], [request]⟩
  | associated (toServer toClient clientGot serverGot : List α) : admits = true →
    Reached ⟨.associated, .associated, toServer.map .data, toClient.map .data,
      serverGot ++ toServer, clientGot ++ toClient, clientGot, serverGot⟩
  | releasing (toServer toClient clientGot serverGot : List α) : admits = true →
    Reached ⟨.releasing, .associated, toServer.map .data ++ [.finish], toClient.map .data,
      serverGot ++ toServer, clientGot ++ toClient, clientGot, serverGot⟩
  | released (toClient clientGot serverGot : List α) : admits = true →
    Reached ⟨.releasing, .stopped, [], toClient.map .data ++ [.disconnect], serverGot,
      clientGot ++ toClient, clientGot, serverGot⟩
  | closed (clientGot serverGot : List α) : admits = true →
    Reached ⟨.closed, .stopped, [], [], serverGot, clientGot, clientGot, serverGot⟩

variable {admits request} {s t : State α} {action : Action α}

theorem finish_ne_data (payload : α) : Message.finish ≠ .data payload := by
  intro h
  cases h

theorem disconnect_ne_data (payload : α) : Message.disconnect ≠ .data payload := by
  intro h
  cases h

/-- Data that are read are the first that are on their way. -/
theorem data_uncons {datas : List α} {payload : α} {rest : List (Message α)}
    (h : datas.map Message.data = .data payload :: rest) :
    ∃ datas', datas = payload :: datas' ∧ rest = datas'.map .data := by
  obtain ⟨payload', datas', rfl, hpayload, hrest⟩ := List.map_eq_cons_iff.mp h
  cases hpayload
  exact ⟨datas', rfl, hrest.symm⟩

theorem data_uncons_append {datas : List α} {last : Message α} {payload : α}
    {rest : List (Message α)} (hlast : last ≠ .data payload)
    (h : datas.map Message.data ++ [last] = .data payload :: rest) :
    ∃ datas', datas = payload :: datas' ∧ rest = datas'.map .data ++ [last] := by
  cases datas with
  | nil => exact absurd (List.cons.inj h).1 hlast
  | cons payload' datas =>
    obtain ⟨hpayload, hrest⟩ := List.cons.inj h
    cases hpayload
    exact ⟨datas, rfl, hrest.symm⟩

theorem last_uncons {datas : List α} {last : Message α} {rest : List (Message α)}
    (hlast : ∀ payload, last ≠ .data payload)
    (h : datas.map Message.data ++ [last] = last :: rest) : datas = [] ∧ rest = [] := by
  cases datas with
  | nil => exact ⟨rfl, (List.cons.inj h).2.symm⟩
  | cons payload datas => exact absurd (List.cons.inj h).1.symm (hlast payload)

theorem not_mem_data {datas : List α} {first : Message α} {rest : List (Message α)}
    (hfirst : ∀ payload, first ≠ .data payload) : datas.map Message.data ≠ first :: rest := by
  cases datas with
  | nil => exact fun h => nomatch h
  | cons payload datas => exact fun h => hfirst payload (List.cons.inj h).1.symm

theorem map_data_append_answer (datas : List α) (response : Option α) :
    datas.map Message.data ++ (response.map .data).toList =
      (datas ++ response.toList).map .data := by
  rw [List.map_append]
  cases response with
  | none => rfl
  | some response => rfl

theorem Reached.serve {payload : α} {response : Option α} {rest : List (Message α)}
    (h : Reached admits request s) (hserver : s.server = .associated)
    (hread : s.toServer = .data payload :: rest) :
    Reached admits request { s with
      toServer := rest
      toClient := s.toClient ++ (response.map .data).toList
      serverSent := s.serverSent ++ response.toList
      serverGot := s.serverGot ++ [payload] } := by
  cases h with
  | accepted => cases hread
  | associated toServer toClient clientGot serverGot hadmits =>
    obtain ⟨toServer, rfl, rfl⟩ := data_uncons hread
    have hnext : Reached admits request _ :=
      .associated toServer (toClient ++ response.toList) clientGot
      (serverGot ++ [payload]) hadmits
    rw [← map_data_append_answer, List.append_assoc, ← List.append_assoc clientGot] at hnext
    exact hnext
  | releasing toServer toClient clientGot serverGot hadmits =>
    obtain ⟨toServer, rfl, rfl⟩ := data_uncons_append (finish_ne_data payload) hread
    have hnext : Reached admits request _ :=
      .releasing toServer (toClient ++ response.toList) clientGot
      (serverGot ++ [payload]) hadmits
    rw [← map_data_append_answer, List.append_assoc, ← List.append_assoc clientGot] at hnext
    exact hnext
  | _ => cases hserver

theorem Reached.disconnect {rest : List (Message α)} (h : Reached admits request s)
    (hserver : s.server = .associated) (hread : s.toServer = .finish :: rest) :
    Reached admits request { s with
      server := .stopped
      toServer := rest
      toClient := s.toClient ++ [.disconnect] } := by
  cases h with
  | accepted => cases hread
  | associated => exact absurd hread (not_mem_data finish_ne_data)
  | releasing toServer toClient clientGot serverGot hadmits =>
    obtain ⟨rfl, rfl⟩ := last_uncons finish_ne_data hread
    have hnext : Reached admits request _ :=
      .released toClient clientGot serverGot hadmits
    simpa only [List.append_nil] using hnext
  | _ => cases hserver

theorem Reached.serverSend {payload : α} (h : Reached admits request s)
    (hserver : s.server = .associated) :
    Reached admits request { s with
      toClient := s.toClient ++ [.data payload]
      serverSent := s.serverSent ++ [payload] } := by
  cases h with
  | accepted response toClient hadmits =>
    have hnext : Reached admits request _ :=
      .accepted response (toClient ++ [payload]) hadmits
    rw [List.map_append] at hnext
    exact hnext
  | associated toServer toClient clientGot serverGot hadmits =>
    have hnext : Reached admits request _ :=
      .associated toServer (toClient ++ [payload]) clientGot serverGot hadmits
    rw [List.map_append, ← List.append_assoc clientGot] at hnext
    exact hnext
  | releasing toServer toClient clientGot serverGot hadmits =>
    have hnext : Reached admits request _ :=
      .releasing toServer (toClient ++ [payload]) clientGot serverGot hadmits
    rw [List.map_append, ← List.append_assoc clientGot] at hnext
    exact hnext
  | _ => cases hserver

theorem Reached.receive {payload : α} {rest : List (Message α)} (h : Reached admits request s)
    (hclient : s.client = .associated ∨ s.client = .releasing)
    (hread : s.toClient = .data payload :: rest) :
    Reached admits request { s with
      toClient := rest
      clientGot := s.clientGot ++ [payload] } := by
  cases h with
  | associated toServer toClient clientGot serverGot hadmits =>
    obtain ⟨toClient, rfl, rfl⟩ := data_uncons hread
    have hnext : Reached admits request _ :=
      .associated toServer toClient (clientGot ++ [payload]) serverGot hadmits
    rw [List.append_assoc] at hnext
    exact hnext
  | releasing toServer toClient clientGot serverGot hadmits =>
    obtain ⟨toClient, rfl, rfl⟩ := data_uncons hread
    have hnext : Reached admits request _ :=
      .releasing toServer toClient (clientGot ++ [payload]) serverGot hadmits
    rw [List.append_assoc] at hnext
    exact hnext
  | released toClient clientGot serverGot hadmits =>
    obtain ⟨toClient, rfl, rfl⟩ := data_uncons_append (disconnect_ne_data payload) hread
    have hnext : Reached admits request _ :=
      .released toClient (clientGot ++ [payload]) serverGot hadmits
    rw [List.append_assoc] at hnext
    exact hnext
  | _ => rcases hclient with hclient | hclient <;> cases hclient

theorem Reached.step (h : Reached admits request s) (hs : Step admits request s action t) :
    Reached admits request t := by
  cases hs with
  | confirm hserver hread =>
    cases h <;> cases hserver
    cases hread
    exact .confirmed
  | accept hadmits hserver hread =>
    cases h <;> cases hserver <;> cases hread
    exact .accepted _ [] hadmits
  | refuse hadmits hserver hread =>
    cases h <;> cases hserver <;> cases hread
    exact .refused hadmits
  | serve hserver hread => exact h.serve hserver hread
  | disconnect hserver hread => exact h.disconnect hserver hread
  | serverSend hserver => exact h.serverSend hserver
  | connect hclient hread =>
    cases h <;> cases hclient <;> cases hread
    exact .asked
  | associate hclient hread =>
    cases h <;> cases hclient <;> cases hread
    exact .associated [] _ [_] [request] ‹_›
  | fail hclient hread hserver =>
    cases h <;> cases hclient <;> cases hserver
    exact .failed ‹_›
  | receive hclient hread => exact h.receive hclient hread
  | close hclient hread =>
    cases h with
    | releasing => exact absurd hread (not_mem_data disconnect_ne_data)
    | released toClient clientGot serverGot hadmits =>
      obtain ⟨rfl, rfl⟩ := last_uncons disconnect_ne_data hread
      have hnext : Reached admits request _ := .closed clientGot serverGot hadmits
      simpa only [List.append_nil] using hnext
    | _ => cases hclient
  | @clientSend payload hclient =>
    cases h with
    | associated toServer toClient clientGot serverGot hadmits =>
      have hnext : Reached admits request _ :=
        .associated (toServer ++ [payload]) toClient clientGot serverGot hadmits
      rw [List.map_append, ← List.append_assoc serverGot] at hnext
      exact hnext
    | _ => cases hclient
  | release hclient =>
    cases h with
    | associated toServer toClient clientGot serverGot hadmits => exact .releasing _ _ _ _ hadmits
    | _ => cases hclient

/-- What a server that has something to read can have to read. -/
theorem Reached.toServer_cases (h : Reached admits request s) (hserver : s.server ≠ .stopped)
    (hne : s.toServer ≠ []) :
    (s.server = .waiting ∧ s.toServer = [.connectionRequest]) ∨
    (s.server = .connected ∧ s.toServer = [.connect request] ∧ s.serverGot = []) ∨
    (s.server = .associated ∧ ∃ payload rest, s.toServer = .data payload :: rest) ∨
    (s.server = .associated ∧ s.toServer = [.finish]) := by
  cases h with
  | requested => exact .inl ⟨rfl, rfl⟩
  | confirmed | accepted => exact absurd rfl hne
  | asked => exact .inr (.inl ⟨rfl, rfl, rfl⟩)
  | refused | failed | released | closed => exact absurd rfl hserver
  | associated toServer =>
    cases toServer with
    | nil => exact absurd rfl hne
    | cons payload toServer => exact .inr (.inr (.inl ⟨rfl, _, _, rfl⟩))
  | releasing toServer =>
    cases toServer with
    | nil => exact .inr (.inr (.inr ⟨rfl, rfl⟩))
    | cons payload toServer => exact .inr (.inr (.inl ⟨rfl, _, _, rfl⟩))

/-- What a client that has something to read can have to read. -/
theorem Reached.toClient_cases (h : Reached admits request s)
    (hclient : s.client ≠ .closed ∧ s.client ≠ .failed)
    (hne : s.toClient ≠ [] ∨ s.server = .stopped) :
    (s.client = .connecting ∧ s.toClient = [.connectionConfirm]) ∨
    (s.client = .associating ∧ ∃ response rest, s.toClient = .accept response :: rest) ∨
    (s.client = .associating ∧ s.toClient = [] ∧ s.server = .stopped) ∨
    ((s.client = .associated ∨ s.client = .releasing) ∧
      ∃ payload rest, s.toClient = .data payload :: rest) ∨
    (s.client = .releasing ∧ s.toClient = [.disconnect]) := by
  cases h with
  | requested | asked => exact absurd hne (not_or_intro (fun h => h rfl) fun h => nomatch h)
  | confirmed => exact .inl ⟨rfl, rfl⟩
  | refused => exact .inr (.inr (.inl ⟨rfl, rfl, rfl⟩))
  | failed => exact absurd rfl hclient.2
  | accepted => exact .inr (.inl ⟨rfl, _, _, rfl⟩)
  | associated _ toClient =>
    cases toClient with
    | nil => exact absurd hne (not_or_intro (fun h => h rfl) fun h => nomatch h)
    | cons payload toClient => exact .inr (.inr (.inr (.inl ⟨.inl rfl, _, _, rfl⟩)))
  | releasing _ toClient =>
    cases toClient with
    | nil => exact absurd hne (not_or_intro (fun h => h rfl) fun h => nomatch h)
    | cons payload toClient => exact .inr (.inr (.inr (.inl ⟨.inr rfl, _, _, rfl⟩)))
  | released toClient =>
    cases toClient with
    | nil => exact .inr (.inr (.inr (.inr ⟨rfl, rfl⟩)))
    | cons payload toClient => exact .inr (.inr (.inr (.inl ⟨.inr rfl, _, _, rfl⟩)))
  | closed => exact absurd rfl hclient.1

/-- A running server that has got a message has an association. -/
theorem Reached.associated_of_got (h : Reached admits request s) (hserver : s.server ≠ .stopped)
    (hgot : s.serverGot ≠ []) : s.server = .associated := by
  cases h with
  | requested | confirmed | asked => exact absurd rfl hgot
  | refused | failed | released | closed => exact absurd rfl hserver
  | accepted | associated | releasing => rfl

theorem Step.serverReads_enabled {response : Option α}
    (h : Step admits request s (.serverReads response) t) :
    s.server ≠ .stopped ∧ s.toServer ≠ [] := by
  cases h with
  | confirm hserver hread | serve hserver hread | disconnect hserver hread =>
    rw [hserver, hread]
    exact ⟨(fun h => nomatch h), List.cons_ne_nil _ _⟩
  | accept _ hserver hread | refuse _ hserver hread =>
    rw [hserver, hread]
    exact ⟨(fun h => nomatch h), List.cons_ne_nil _ _⟩

theorem Step.clientReads_enabled (h : Step admits request s .clientReads t) :
    (s.client ≠ .closed ∧ s.client ≠ .failed) ∧ (s.toClient ≠ [] ∨ s.server = .stopped) := by
  cases h with
  | connect hclient hread | associate hclient hread | close hclient hread =>
    rw [hclient, hread]
    exact ⟨⟨(fun h => nomatch h), fun h => nomatch h⟩, .inl (List.cons_ne_nil _ _)⟩
  | fail hclient hread hserver =>
    rw [hclient]
    exact ⟨⟨(fun h => nomatch h), fun h => nomatch h⟩, .inr hserver⟩
  | receive hclient hread =>
    rw [hread]
    refine ⟨?_, .inl (List.cons_ne_nil _ _)⟩
    rcases hclient with hclient | hclient <;> rw [hclient] <;>
      exact ⟨(fun h => nomatch h), fun h => nomatch h⟩

/-! ## What is got, and what is bound to happen -/

/-- One side reads the next message. -/
def Reads (admits : Bool) (request : α) (s t : State α) : Prop :=
  Step admits request s .clientReads t ∨
    ∃ response, Step admits request s (.serverReads response) t

/-- What there is to read yet: a message to the server may be answered. -/
def work (s : State α) : Nat := 2 * s.toServer.length + s.toClient.length + s.client.rank

theorem work_lt (h : Reads admits request s t) : t.work < s.work := by
  rcases h with h | ⟨response, h⟩
  · cases h with
    | connect hclient hread | associate hclient hread | close hclient hread =>
      simp only [work, hread, hclient, ClientPhase.rank, List.length_append, List.length_cons,
        List.length_nil]
      omega
    | fail hclient hread =>
      simp only [work, hread, hclient, ClientPhase.rank, List.length_nil]
      omega
    | receive hclient hread =>
      simp only [work, hread, List.length_cons]
      omega
  · cases h with
    | serve _ hread =>
      have hanswer : (response.map Message.data).toList.length ≤ 1 := by
        cases response with
        | none => exact Nat.zero_le 1
        | some => exact Nat.le_refl 1
      simp only [work, hread, List.length_append, List.length_cons]
      omega
    | confirm _ hread | accept _ _ hread | refuse _ _ hread | disconnect _ hread =>
      simp only [work, hread, List.length_append, List.length_cons, List.length_nil]
      omega

/-- The association has been made, or it has been refused. -/
def Decided (admits : Bool) (s : State α) : Prop :=
  if admits = true then s.client = .associated else s.client = .failed

/-- The client has not asked for the release. -/
def Unreleased (s : State α) : Prop := s.client ≠ .releasing ∧ s.client ≠ .closed

theorem Reached.reads_of_unreleased (h : Reached admits request s) (hu : s.Unreleased)
    (hg : ¬ s.Decided admits) : ∃ t, Reads admits request s t := by
  cases h with
  | requested => exact ⟨_, .inr ⟨none, .confirm rfl rfl⟩⟩
  | confirmed => exact ⟨_, .inl (.connect rfl rfl)⟩
  | asked =>
    cases hadmits : admits with
    | true => exact ⟨_, .inr ⟨some request, .accept rfl rfl rfl⟩⟩
    | false => exact ⟨_, .inr ⟨none, .refuse rfl rfl rfl⟩⟩
  | refused => exact ⟨_, .inl (.fail rfl rfl rfl)⟩
  | failed hadmits => exact absurd (by rw [Decided, hadmits]; rfl) hg
  | accepted => exact ⟨_, .inl (.associate rfl rfl)⟩
  | associated _ _ _ _ hadmits => exact absurd (by rw [Decided, hadmits]; rfl) hg
  | releasing | released => exact absurd rfl hu.1
  | closed => exact absurd rfl hu.2

theorem Reached.reads (h : Reached admits request s) (hr : Reads admits request s t) :
    Reached admits request t := by
  rcases hr with hr | ⟨response, hr⟩
  · exact h.step hr
  · exact h.step hr

theorem Unreleased.reads (h : s.Unreleased) (hr : Reads admits request s t) : t.Unreleased := by
  rcases hr with hr | ⟨response, hr⟩
  · cases hr with
    | close hclient => exact absurd hclient h.1
    | receive => exact h
    | _ => exact ⟨(fun h => nomatch h), fun h => nomatch h⟩
  · cases hr with
    | _ => exact h

/-- However the two sides go on reading, the association is made, or it is refused. -/
theorem Reached.decided (h : Reached admits request s) (hu : s.Unreleased) :
    Transition.Inevitable (Reads admits request) (Decided admits) s := by
  refine Transition.inevitable_of_measure (fun s => Reached admits request s ∧ s.Unreleased) work
    ?_ ?_ ?_ ⟨h, hu⟩
  · exact fun a b ha hr => ⟨ha.1.reads hr, ha.2.reads hr⟩
  · exact fun a b _ hr => work_lt hr
  · exact fun a ha hg => ha.1.reads_of_unreleased ha.2 hg

end State

end Iec61850.Association
