import WolfNet.Status

/-!
# What wolfnetctl shows

The display of the status, line by line. Where no peer has a trace of data in its status, the
daemon is taken for an older one that does not report data, and every connected peer is shown as
online: `ctl_reports_iff` says when this guess is right for the daemon's own status.
-/

namespace WolfNet

open WolfNet.Std

/-- `&text[..stop]`. -/
def textBefore (text : String) (stop : Nat) : Rust String :=
  match splitAtByte stop text.toList with
  | some (front, _) => .ok (String.ofList front)
  | none => .error .outOfRange

/-- `&text[text.len() - count..]`. -/
def textEnd (text : String) (count : Nat) : Rust String :=
  if byteLength text.toList < count then .error .outOfRange
  else
    match splitAtByte (byteLength text.toList - count) text.toList with
    | some (_, back) => .ok (String.ofList back)
    | none => .error .outOfRange

/-- A text with spaces behind it up to a width. -/
def padded (width : Nat) (text : String) : String :=
  text ++ String.ofList (List.replicate (width - text.length) ' ')

def formatDuration (secs : UInt64) : String :=
  let secs := secs.toNat
  if secs < 60 then s!"{secs}s"
  else if secs < 3600 then s!"{secs / 60}m {secs % 60}s"
  else if secs < 86400 then s!"{secs / 3600}h {(secs % 3600) / 60}m"
  else s!"{secs / 86400}d {(secs % 86400) / 3600}h"

namespace NodeStatus

/-- The guess that the daemon reports data: some peer has a trace of it. -/
def daemonReportsDataFlow (status : NodeStatus) : Bool :=
  status.peers.any fun peer => peer.lastDataRxSecs != neverSecs || peer.dataFlowing

/-- The number of peers that data was decrypted from. -/
def passingData (status : NodeStatus) : Nat := status.peers.countP fun peer => peer.dataFlowing

/-- The number of peers that are connected without data. -/
def handshakeOnly (status : NodeStatus) : Nat :=
  status.peers.countP fun peer => peer.connected && !peer.dataFlowing

/-- The number of the other peers. -/
def offline (status : NodeStatus) : Nat :=
  status.peers.length - status.passingData - status.handshakeOnly

/-- The summary by the three classes. -/
def dataSummary (status : NodeStatus) : String :=
  s!"  Peers:       {status.peers.length} ({status.passingData} passing data, " ++
    s!"{status.handshakeOnly} handshake-only, {status.offline}" ++ " offline)"

/-- The summary for an older daemon. -/
def legacySummary (status : NodeStatus) : String :=
  s!"  Peers:       {status.peers.length} ({status.peers.countP PeerStatus.connected}" ++ " connected)"

end NodeStatus

/-- `wolfnetctl status`, line by line. -/
def cmdStatus (status : NodeStatus) : Rust (List String) := do
  let keyFront ← textBefore status.publicKey 8
  let keyEnd ← textEnd status.publicKey 4
  return [
    "",
    "  WolfNet Status",
    "  ─────────────────────────────────────",
    "  Hostname:    " ++ status.hostname,
    "  WolfNet IP:  " ++ status.address,
    "  Interface:   " ++ status.interface,
    s!"  Listen Port: {status.listenPort.toNat}",
    "  Gateway:     " ++ if status.gateway then "Yes" else "No",
    "  Public Key:  " ++ keyFront ++ "..." ++ keyEnd,
    "  Uptime:      " ++ formatDuration status.uptimeSecs,
    if status.daemonReportsDataFlow then status.dataSummary else status.legacySummary,
    ""]

/-- The icon and the word for the state of a peer. -/
def PeerStatus.shown (peer : PeerStatus) (daemonReportsDataFlow : Bool) : String × String :=
  if peer.dataFlowing then ("●", "online")
  else if peer.connected && daemonReportsDataFlow then ("◐", "handshake-only")
  else if peer.connected then ("●", "online")
  else
    match peer.relayVia with
    | some relay => ("◉", "via " ++ relay)
    | none => ("○", "offline")

/-- The line of a peer, with an icon and a word for its state. -/
def PeerStatus.lineWith (peer : PeerStatus) (icon word : String) : String :=
  let lastSeen :=
    if peer.lastSeenSecs = neverSecs then "never" else formatDuration peer.lastSeenSecs
  let host := if peer.hostname = "" then "-" else peer.hostname
  "  " ++ padded 16 host ++ " " ++ padded 16 peer.address ++ " " ++ padded 24 peer.endpoint ++ " " ++
    icon ++ " " ++ padded 14 word ++ " " ++ lastSeen

/-- The line of a peer. -/
def PeerStatus.line (peer : PeerStatus) (daemonReportsDataFlow : Bool) : String :=
  peer.lineWith (peer.shown daemonReportsDataFlow).1 (peer.shown daemonReportsDataFlow).2

/-- `wolfnetctl peers`, line by line up to the traffic summary. -/
def cmdPeers (status : NodeStatus) : List String :=
  if status.peers.isEmpty then
    ["No peers configured.",
      "Add peers via /etc/wolfnet/config.toml or enable LAN discovery."]
  else
    ["",
      "  WolfNet Peers",
      "  ─────────────────────────────────────────────────────────────────────",
      "  " ++ padded 16 "HOSTNAME" ++ " " ++ padded 16 "WOLFNET IP" ++ " " ++ padded 24 "ENDPOINT" ++
        " " ++ padded 10 "STATUS" ++ " LAST SEEN",
      "  ─────────────────────────────────────────────────────────────────────"] ++
    status.peers.map fun peer => peer.line status.daemonReportsDataFlow

namespace NodeStatus

/-- The line of every peer shows it online exactly when data flows, and handshake-only exactly
when it is connected without data. -/
def ShowsStates (status : NodeStatus) : Prop :=
  ∀ (place : Nat) (peer : PeerStatus), status.peers[place]? = some peer →
    ((cmdPeers status)[place + 5]? = some (peer.lineWith "●" "online") ↔
      peer.dataFlowing = true) ∧
    ((cmdPeers status)[place + 5]? = some (peer.lineWith "◐" "handshake-only") ↔
      peer.connected = true ∧ peer.dataFlowing = false)

/-- The summary line counts the peers in the three classes. -/
def ShowsSummary (status : NodeStatus) : Prop :=
  ∃ lines, cmdStatus status = .ok lines ∧ lines[10]? = some status.dataSummary

end NodeStatus

/-- The two summaries end in different words. -/
theorem connected_ne_offline (front other : String) :
    front ++ " connected)" ≠ other ++ " offline)" := by
  intro same
  have ends := congrArg (fun line => line.toList.reverse[1]?) same
  simp only [String.toList_append, List.reverse_append] at ends
  rw [List.getElem?_append_left (by decide), List.getElem?_append_left (by decide)] at ends
  exact absurd ends (by decide)

namespace PeerStatus

variable (peer : PeerStatus)

/-- Lines of a peer with different icons are different. -/
theorem lineWith_ne {icon other word otherWord : String} (shows : icon.toList ≠ [])
    (otherShows : other.toList ≠ []) (different : icon.toList.head? ≠ other.toList.head?) :
    peer.lineWith icon word ≠ peer.lineWith other otherWord := by
  intro same
  apply different
  have texts := congrArg String.toList same
  simp only [lineWith, String.toList_append, List.append_assoc, List.append_cancel_left_eq] at texts
  have starts := congrArg List.head? texts
  rwa [List.head?_append_of_ne_nil _ shows, List.head?_append_of_ne_nil _ otherShows] at starts

/-- The states that are shown. -/
theorem shown_cases (reports : Bool) :
    (peer.shown reports = ("●", "online") ∧
      (peer.dataFlowing = true ∨ peer.connected = true ∧ reports = false)) ∨
    (peer.shown reports = ("◐", "handshake-only") ∧
      peer.dataFlowing = false ∧ peer.connected = true ∧ reports = true) ∨
    ((∃ word, peer.shown reports = ("◉", word) ∨ peer.shown reports = ("○", word)) ∧
      peer.dataFlowing = false ∧ peer.connected = false) := by
  cases flowing : peer.dataFlowing <;> cases alive : peer.connected <;> cases reports <;>
    cases relayed : peer.relayVia <;> simp [shown, flowing, alive, relayed]

/-- The line shows a peer online exactly when data flows, or when it is connected to a daemon
that is taken for an older one. -/
theorem line_online_iff (reports : Bool) :
    peer.line reports = peer.lineWith "●" "online" ↔
      peer.dataFlowing = true ∨ peer.connected = true ∧ reports = false := by
  rcases peer.shown_cases reports with ⟨shown, online⟩ | ⟨shown, idle, _, reporting⟩ |
    ⟨⟨word, shown | shown⟩, idle, away⟩ <;> simp only [line, shown]
  · simp [online]
  · exact iff_of_false (peer.lineWith_ne (by decide) (by decide) (by decide)) (by simp [idle, reporting])
  · exact iff_of_false (peer.lineWith_ne (by decide) (by decide) (by decide)) (by simp [idle, away])
  · exact iff_of_false (peer.lineWith_ne (by decide) (by decide) (by decide)) (by simp [idle, away])

/-- The line shows a peer handshake-only exactly when it is connected without data to a daemon
that is taken to report data. -/
theorem line_handshakeOnly_iff (reports : Bool) :
    peer.line reports = peer.lineWith "◐" "handshake-only" ↔
      peer.dataFlowing = false ∧ peer.connected = true ∧ reports = true := by
  rcases peer.shown_cases reports with ⟨shown, online⟩ | ⟨shown, only⟩ |
    ⟨⟨word, shown | shown⟩, idle, away⟩ <;> simp only [line, shown]
  · refine iff_of_false (peer.lineWith_ne (by decide) (by decide) (by decide)) ?_
    rintro ⟨idle, _, reporting⟩
    simp [idle, reporting] at online
  · simp [only]
  · exact iff_of_false (peer.lineWith_ne (by decide) (by decide) (by decide)) (by simp [away])
  · exact iff_of_false (peer.lineWith_ne (by decide) (by decide) (by decide)) (by simp [away])

end PeerStatus

namespace NodeStatus

variable {status : NodeStatus}

/-- The two summaries are different lines. -/
theorem legacySummary_ne_dataSummary : status.legacySummary ≠ status.dataSummary :=
  connected_ne_offline _ _

/-- A daemon that is taken for an older one shows no data flowing. -/
theorem dataFlowing_of_not_reports (silent : status.daemonReportsDataFlow = false) {peer : PeerStatus}
    (member : peer ∈ status.peers) : peer.dataFlowing = false := by
  have quiet := List.any_eq_false.mp silent peer member
  simp only [Bool.or_eq_true, not_or, Bool.not_eq_true] at quiet
  exact quiet.2

/-- The lines of the peers stand below the header, in their order. -/
theorem cmdPeers_line {place : Nat} {peer : PeerStatus} (listed : status.peers[place]? = some peer) :
    (cmdPeers status)[place + 5]? = some (peer.line status.daemonReportsDataFlow) := by
  have known : status.peers.isEmpty = false :=
    List.isEmpty_eq_false_iff.mpr (List.ne_nil_of_mem (List.mem_of_getElem? listed))
  rw [cmdPeers, known, if_neg Bool.false_ne_true]
  show (status.peers.map fun peer => peer.line status.daemonReportsDataFlow)[place]? = _
  rw [List.getElem?_map, listed, Option.map_some]

/-- The states are right where data is reported, and where no peer is connected. -/
theorem showsStates_iff : status.ShowsStates ↔ status.daemonReportsDataFlow = true ∨
    ∀ peer ∈ status.peers, peer.connected = false := by
  constructor
  · intro shows
    rcases reports : status.daemonReportsDataFlow
    · refine Or.inr fun peer member => ?_
      obtain ⟨place, listed⟩ := List.mem_iff_getElem?.mp member
      have online := (shows place peer listed).1
      rw [cmdPeers_line listed, Option.some.injEq, PeerStatus.line_online_iff, reports,
        dataFlowing_of_not_reports reports member] at online
      simpa using online
    · exact Or.inl rfl
  · intro right place peer listed
    have member := List.mem_of_getElem? listed
    rw [cmdPeers_line listed, Option.some.injEq, Option.some.injEq, PeerStatus.line_online_iff,
      PeerStatus.line_handshakeOnly_iff]
    rcases right with reports | away
    · simp [reports, and_comm]
    · simp [away peer member]

/-- The summary of a node whose public key can be shown. -/
theorem cmdStatus_eq {front back : String} (first : textBefore status.publicKey 8 = .ok front)
    (last : textEnd status.publicKey 4 = .ok back) : ∃ lines, cmdStatus status = .ok lines ∧
      lines[10]? = some (if status.daemonReportsDataFlow then status.dataSummary
        else status.legacySummary) := by
  simp only [cmdStatus, first, last, Rust.ok_bind, Rust.pure_eq]
  exact ⟨_, rfl, rfl⟩

/-- The summary line is right where data is reported. -/
theorem showsSummary_iff {front back : String} (first : textBefore status.publicKey 8 = .ok front)
    (last : textEnd status.publicKey 4 = .ok back) :
    status.ShowsSummary ↔ status.daemonReportsDataFlow = true := by
  obtain ⟨lines, run, summary⟩ := cmdStatus_eq first last
  simp only [ShowsSummary, run, Except.ok.injEq, exists_eq_left', summary, Option.some.injEq]
  cases status.daemonReportsDataFlow with
  | true => simp
  | false => simpa using legacySummary_ne_dataSummary

end NodeStatus

section Daemon

variable [Crates]

/-- The base64 of a key can be cut. -/
theorem publicKey_cut (padded : Base64Padded) (publicKey : PublicKey) :
    (∃ front, textBefore (Crates.base64Encode publicKey.1) 8 = .ok front) ∧
    ∃ back, textEnd (Crates.base64Encode publicKey.1) 4 = .ok back := by
  have size := padded.length publicKey.1
  rw [publicKey.2] at size
  have ascii : ∀ c ∈ (Crates.base64Encode publicKey.1).toList, c.toNat < 128 := fun c member =>
    have sign := toNat_of_isBase64Char (padded.alphabet publicKey.1 c member)
    by omega
  constructor
  · rw [textBefore, splitAtByte_ascii ascii (by omega)]
    exact ⟨_, rfl⟩
  · rw [textEnd, byteLength_ascii ascii, if_neg (by omega), splitAtByte_ascii ascii (by omega)]
    exact ⟨_, rfl⟩

/-- Some peer of the table sent data that was decrypted. -/
def PeerManager.Heard (pm : PeerManager) : Prop :=
  ∃ ip peer, pm.peersByIp.get ip = some peer ∧ peer.lastDataRx ≠ none

/-- The status has a trace of data exactly when data was decrypted. -/
theorem reports_iff (node : Node) (startTime now : Instant) (reads : Nat → Readings) :
    (node.status startTime now reads).daemonReportsDataFlow = true ↔ node.peerManager.Heard := by
  rw [NodeStatus.daemonReportsDataFlow, List.any_eq_true]
  constructor
  · rintro ⟨status, member, trace⟩
    obtain ⟨ip, peer, position, held, rfl⟩ := PeerManager.mem_status member
    refine ⟨ip, peer, held, fun never => ?_⟩
    have quiet : peer.isPassingData (reads position).dataFlowing = false := by
      simp [Peer.isPassingData, never]
    have unheard := (secsSince_eq_never (reads position).bounded).mpr never
    simp [Peer.status, quiet, unheard] at trace
  · rintro ⟨ip, peer, held, heard⟩
    obtain ⟨position, member⟩ := PeerManager.status_mem held reads
    refine ⟨_, member, ?_⟩
    have traced := (secsSince_eq_never (reads position).bounded).not.mpr heard
    simp [Peer.status, traced]

/-- What the daemon writes is read as it is, and shown by its states and classes exactly when data
of some peer was decrypted. The states alone are also right while no peer is connected. -/
theorem ctl_reports_iff (padded : Base64Padded) (node : Node) (startTime now : Instant)
    (reads : Nat → Readings) {parse : String → Option Json}
    (parsed : parse (writeStatus (node.status startTime now reads)) =
      some (node.status startTime now reads).toJson) :
    loadStatus parse (writeStatus (node.status startTime now reads)) =
      some (node.status startTime now reads) ∧
    ((node.status startTime now reads).ShowsStates ∧ (node.status startTime now reads).ShowsSummary ↔
      node.peerManager.Heard) ∧
    ((node.status startTime now reads).ShowsStates ↔ node.peerManager.Heard ∨
      ∀ peer ∈ (node.status startTime now reads).peers, peer.connected = false) := by
  obtain ⟨⟨front, first⟩, back, last⟩ := publicKey_cut padded node.keypair.publicKey
  have summary := @NodeStatus.showsSummary_iff (node.status startTime now reads) _ _ first last
  have states := @NodeStatus.showsStates_iff (node.status startTime now reads)
  rw [reports_iff] at summary states
  refine ⟨loadStatus_writeStatus parsed, ?_, states⟩
  rw [summary, states]
  exact ⟨And.right, fun heard => ⟨Or.inl heard, heard⟩⟩

end Daemon

/-- Readings of the clock at its start. -/
def Sample.readings : Readings where
  lastSeen := 0
  connected := 0
  dataFlowing := 0
  lastDataRx := 0
  beforeConnected := le_rfl
  beforeFlowing := le_rfl
  beforeLast := le_rfl
  bounded := by decide

section Sample

attribute [local instance] Sample.crates

/-- A peer that is connected without data is shown as online, and counted as connected. -/
theorem connected_shown_online :
    ∃ (node : Node) (startTime now : Instant) (reads : Nat → Readings) (peer : PeerStatus),
      (node.status startTime now reads).peers = [peer] ∧
      peer.connected = true ∧ peer.dataFlowing = false ∧
      (cmdPeers (node.status startTime now reads))[5]? = some (peer.lineWith "●" "online") ∧
      ∃ lines, cmdStatus (node.status startTime now reads) = .ok lines ∧
        lines[10]? = some "  Peers:       1 (1 connected)" := by
  refine ⟨Sample.node 1 false (Sample.connectedTable 1 2), 0, 0, fun _ => Sample.readings, _,
    rfl, rfl, rfl, rfl, _, rfl, rfl⟩

/-- A sample node that had data from one peer, and a handshake of another one. -/
def Sample.heardNode : Node :=
  Sample.node 1 false ((PeerManager.new.addPeer { Sample.record 1 2 with
    endpoint := some Sample.endpoint, lastSeen := some 0, lastDataRx := some 0 }).addPeer
      { Sample.record 1 3 with lastSeen := some 0 })

def Sample.heardStatus : NodeStatus := Sample.heardNode.status 0 0 fun _ => Sample.readings

/-- The parser at the text of one status. Data flows from one of two connected peers, and both are
shown as they are. -/
theorem ctl_reports_sample : ∃ parse : String → Option Json,
    loadStatus parse (writeStatus Sample.heardStatus) = some Sample.heardStatus ∧
    Sample.heardStatus.peers.map PeerStatus.connected = [true, true] ∧
    Sample.heardStatus.peers.countP PeerStatus.dataFlowing = 1 ∧
    Sample.heardStatus.ShowsStates ∧ Sample.heardStatus.ShowsSummary := by
  have heard : Sample.heardNode.peerManager.Heard := ⟨⟨10, 10, 10, 2⟩, _, rfl, by decide⟩
  let parse := fun content => if content = writeStatus Sample.heardStatus then
    some Sample.heardStatus.toJson else none
  obtain ⟨read, both, _⟩ := ctl_reports_iff Sample.base64_padded Sample.heardNode 0 0
    (fun _ => Sample.readings) (show parse _ = _ from if_pos rfl)
  exact ⟨parse, read, rfl, rfl, both.mpr heard⟩

end Sample
end WolfNet
