import WolfNet.Daemon.Tunnel
import WolfNet.Mesh

/-!
# Where a delivered packet comes from

A member opens under another member's key only what that one sealed. So a packet that a member
writes to its TUN device has come, by members that each opened what the one before had sealed, from
the TUN device of a member, or from a key that is no member's.
-/

namespace WolfNet

open WolfNet.Std WolfNet.Semantics

section Members

variable [Crates]

namespace Act

variable {Member : Type} {act cause : Act Member} {publicKey : PublicKey} {secret : SharedSecret}
  {nonce : Nonce} {packet : List UInt8}

/-- The later act opened what the earlier one had sealed. -/
def Passes (packet : List UInt8) (cause act : Act Member) : Prop :=
  ∃ sealedFor publicKey secret nonce, cause.Seals sealedFor secret nonce packet ∧
    act.Opens publicKey secret nonce packet

/-- Who seals a packet has it. -/
theorem Seals.has (seals : act.Seals publicKey secret nonce packet) : act.Has packet := by
  obtain ⟨now, _, _, source, _⟩ := seals
  exact ⟨now, source⟩

/-- A datagram that opened did so in the session of a record. -/
theorem opens_of_source {now : Instant} (source : act.before.Source act.event now packet) :
    act.Reads packet ∨ (∃ publicKey secret nonce, act.Opens publicKey secret nonce packet) ∨
      act.event = .peerExchange now ∧
        packet = buildPeerExchange act.before.wolfnetIp act.before.peerManager := by
  obtain ⟨member, before, event, after, effects⟩ := act
  cases source with
  | read => exact Or.inl ⟨now, rfl⟩
  | @opened _ src bytes mid sender _ type long received =>
      obtain ⟨peerId, counter, ciphertext, rfl⟩ := exists_buildDataPacket type long
      obtain ⟨result, run, receives⟩ := before.receiveData_receives now src peerId counter ciphertext
      have same := run.symm.trans received
      cases same
      cases receives with
      | opened _ peer session _ found held established outcome =>
          exact Or.inr (Or.inl ⟨_, _, _, _, _, _, _, _, _, _, _, _, rfl, received, held, rfl,
            established, rfl, rfl⟩)
  | told => exact Or.inr (Or.inr ⟨rfl, rfl⟩)

/-- A sound node opens under the secret with the key of the record. -/
theorem secret_of_opens (opens : act.Opens publicKey secret nonce packet) (sound : act.before.Sound) :
    secret = Crates.diffieHellman act.before.keypair.secret publicKey := by
  obtain ⟨_, _, _, _, _, _, sender, peer, session, _, _, held, rfl, established, rfl, _⟩ := opens
  exact ((sound sender peer held).secured session established).cipher

/-- What a node seals for a key never opens there under that key. -/
theorem Seals.not_reflected {act' : Act Member} (seals : act.Seals publicKey secret nonce packet)
    (opens : act'.Opens publicKey secret nonce packet) (sound : act'.before.Sound)
    (keypair : act.before.keypair = act'.before.keypair) : False := by
  obtain ⟨_, session, _, _, isFor, _, sealing, _⟩ := seals
  obtain ⟨_, _, _, counter, _, _, sender, peer, session', _, _, held, rfl, established, _, opening⟩ :=
    opens
  have isFor' := (sound sender peer held).secured session' established
  have sides := (makeNonce_inj.mp (sealing.trans opening.symm)).2
  rw [isFor.isLowSide, isFor'.isLowSide, keypair] at sides
  exact (Bool.eq_not_self _).mp sides

end Act

namespace Mesh

variable {Member : Type} [DecidableEq Member] {mesh next start last : Mesh Member}
  {member : Member} {event : Node.Event} {trace : List (Mesh Member × Member × Node.Event)}

/-- What the acts of the history opened was sealed by acts before them. -/
def Traced (mesh : Mesh Member) : Prop :=
  ∀ before act after, mesh.history = before ++ act :: after →
    ∀ other publicKey secret nonce packet, act.Opens publicKey secret nonce packet →
      secret = Crates.diffieHellman act.before.keypair.secret (mesh.key other) →
      ∃ cause ∈ before, (cause.member = act.member ∨ cause.member = other) ∧
        ∃ sealedFor, cause.Seals sealedFor secret nonce packet

/-- A step that forges nothing keeps every packet traced. -/
theorem Step.traced (step : Step mesh (member, event) next) (unforged : mesh.Unforged (member, event))
    (traced : mesh.Traced) : next.Traced := by
  have keypair := step.keypair
  have key (other : Member) : next.key other = mesh.key other :=
    congrArg KeyPair.publicKey (keypair other)
  obtain ⟨node', effects, does, rfl⟩ := step
  intro before act after split other publicKey secret nonce packet opens shared
  rw [key] at shared
  rcases List.eq_nil_or_concat after with rfl | ⟨after, newest, rfl⟩
  · obtain ⟨rfl, same⟩ := List.append_inj' split rfl
    cases same
    exact unforged other publicKey secret nonce packet opens shared
  · rw [List.concat_eq_append, ← List.cons_append, ← List.append_assoc] at split
    exact traced before act after (List.append_inj' split rfl).1 other publicKey secret nonce packet
      opens shared

/-- In every run without forgeries all packets are traced. -/
theorem traced (run : Run Step start trace last) (initial : start.Initial)
    (unforged : Throughout Unforged trace) : last.Traced := by
  refine run.invariant (fun traced guard step => Step.traced step guard traced) ?_ unforged
  intro before act after split
  rw [initial.idle] at split
  cases before <;> cases split

/-- A packet that a member opened under the key of a member was sealed by that member before, unless
the first one sealed it itself, under the same secret for another key. -/
theorem attributed (run : Run Step start trace last) (initial : start.Initial)
    (unforged : Throughout Unforged trace) {before after : List (Act Member)} {act : Act Member}
    (history : last.history = before ++ act :: after) {other : Member} {secret : SharedSecret}
    {nonce : Nonce} {packet : List UInt8} (opens : act.Opens (last.key other) secret nonce packet) :
    ∃ cause ∈ before, ∃ sealedFor, cause.Seals sealedFor secret nonce packet ∧
      (cause.member = other ∧ other ≠ act.member ∨
        cause.member = act.member ∧ sealedFor ≠ last.key other) := by
  have sound := sound run initial
  have there : act ∈ last.history := by simp [history]
  obtain ⟨cause, earlier, one, sealedFor, seals⟩ := traced run initial unforged before act after
    history other _ secret nonce packet opens (Act.secret_of_opens opens (sound.recorded act there).sound)
  have causeThere : cause ∈ last.history := by simp [history, earlier]
  refine ⟨cause, earlier, sealedFor, seals, ?_⟩
  by_cases own : cause.member = act.member
  · refine Or.inr ⟨own, ?_⟩
    rintro rfl
    refine seals.not_reflected opens (sound.recorded act there).sound ?_
    rw [(sound.recorded cause causeThere).keypair, (sound.recorded act there).keypair, own]
  · have theirs := one.resolve_left own
    exact Or.inl ⟨theirs, theirs ▸ own⟩

/-- The act opened a packet under a key that is no member's. -/
def FromStranger (mesh : Mesh Member) (packet : List UInt8) (act : Act Member) : Prop :=
  ∃ publicKey secret nonce, act.Opens publicKey secret nonce packet ∧
    ∀ member, publicKey ≠ mesh.key member

/-- The packet entered the mesh here: from a TUN device, from a stranger, or as an exchange. -/
def Enters (mesh : Mesh Member) (packet : List UInt8) (act : Act Member) : Prop :=
  act.Reads packet ∨ mesh.FromStranger packet act ∨ ∃ now, act.event = .peerExchange now ∧
    packet = buildPeerExchange act.before.wolfnetIp act.before.peerManager

/-- Every member that has a packet opened it after another had sealed it, unless it entered there. -/
theorem explained (run : Run Step start trace last) (initial : start.Initial)
    (unforged : Throughout Unforged trace) (packet : List UInt8) :
    Explained (fun act => act.Has packet) (last.Enters packet) (Act.Passes packet) last.history := by
  rintro before act after history ⟨now, source⟩
  rcases Act.opens_of_source source with reads | ⟨publicKey, secret, nonce, opens⟩ | told
  · exact Or.inl (Or.inl reads)
  · by_cases stranger : ∀ member, publicKey ≠ last.key member
    · exact Or.inl (Or.inr (Or.inl ⟨publicKey, secret, nonce, opens, stranger⟩))
    · obtain ⟨other, same⟩ := not_forall.mp stranger
      rw [not_not] at same
      subst same
      obtain ⟨cause, earlier, sealedFor, seals, _⟩ := attributed run initial unforged history opens
      exact Or.inr ⟨cause, earlier, seals.has, sealedFor, _, secret, nonce, seals, opens⟩
  · exact Or.inl (Or.inr (Or.inr ⟨now, told⟩))

omit [DecidableEq Member] in
/-- A member writes only what it opened, and no peer exchange. -/
theorem Recorded.writes {act : Act Member} {packet : List UInt8} (recorded : mesh.Recorded act)
    (writes : act.Writes packet) : act.Has packet ∧ packet.head? ≠ some pktPeerExchange := by
  obtain ⟨_, sound, does⟩ := recorded
  obtain ⟨member, before, event, after, effects⟩ := act
  dsimp only at sound does
  cases does with
  | handled run =>
      cases Node.emission_of_sound sound run writes with
      | written source stays => exact ⟨⟨_, source⟩, stays.head_ne⟩
  | reordered => cases writes
  | exchanged => cases writes

/-- Every packet that a member writes to its TUN device was read before from the TUN device of a
member, or opened before under a key that is no member's; from there it came unchanged, each member
on the way opening what one before it had sealed. -/
theorem written_originates (run : Run Step start trace last) (initial : start.Initial)
    (unforged : Throughout Unforged trace) {act : Act Member} {packet : List UInt8}
    (there : act ∈ last.history) (writes : act.Writes packet) :
    ∃ origin chain, Provenance (fun act => act.Reads packet ∨ last.FromStranger packet act)
      (Act.Passes packet) last.history origin chain act := by
  obtain ⟨has, ip⟩ := ((sound run initial).recorded act there).writes writes
  obtain ⟨origin, chain, provenance⟩ := (explained run initial unforged packet).origin there has
  refine ⟨origin, chain, ?_, provenance.ordered, provenance.causes, provenance.ends⟩
  rcases provenance.source with reads | stranger | ⟨now, told, rfl⟩
  · exact Or.inl reads
  · exact Or.inr stranger
  · exact absurd rfl ip

end Mesh
end Members

section Sample

attribute [local instance] Sample.crates

namespace Mesh

open Node (befriended newcomer hearsFrom samplePacket sampleDatagram)

/-- A mesh of two members. -/
def pair (first second : Node) (history : List (Act Bool)) : Mesh Bool where
  nodes isSecond := if isSecond then second else first
  history := history

/-- The pair of sample nodes is at its beginning. -/
theorem pair_initial : (pair (newcomer 1) (newcomer 2) []).Initial where
  started
    | false => ⟨_, _, _, _, _, Node.newcomer_started 1⟩
    | true => ⟨_, _, _, _, _, Node.newcomer_started 2⟩
  idle := rfl

section Steps

variable {first second node' : Node} {history : List (Act Bool)} {event : Node.Event}
  {effects : List Effect}

/-- What the first one does is a step of the pair. -/
theorem step_first (does : first.Does event node' effects) :
    Step (pair first second history) (false, event)
      (pair node' second (history ++ [⟨false, first, event, node', effects⟩])) := by
  refine ⟨node', effects, does, congrArg (Mesh.mk · _) (funext fun isSecond => ?_)⟩
  cases isSecond <;> rfl

/-- What the second one does is a step of the pair. -/
theorem step_second (does : second.Does event node' effects) :
    Step (pair first second history) (true, event)
      (pair first node' (history ++ [⟨true, second, event, node', effects⟩])) := by
  refine ⟨node', effects, does, congrArg (Mesh.mk · _) (funext fun isSecond => ?_)⟩
  cases isSecond <;> rfl

end Steps

/-- The first node's record of the second. -/
theorem held_sample : ∃ peer,
    (befriended 1 2).peerManager.peersByIp.get ⟨10, 10, 10, 2⟩ = some peer ∧
      peer.cipher = some (Sample.session 1 2) ∧ peer.endpoint = some Sample.endpoint :=
  ⟨_, rfl, rfl, rfl⟩

/-- A packet from the TUN device for a peer that it can be sent to is sent there. -/
theorem handle_direct {node node' : Node} {now : Instant} {packet : List UInt8} {destIp : Ipv4Addr}
    {effects : List Effect} (dest : getDestIp packet = .ok (some destIp))
    (unicast : ¬(destIp = node.subnetBroadcast ∨ destIp = Ipv4Addr.broadcast))
    (sending : node.sendToPeer destIp packet now = .ok (node', effects, true)) :
    node.handle (.tun now packet) = .ok (node', effects) := by
  simp only [Node.handle, Node.outbound, dest, Rust.ok_bind, if_neg unicast,
    Node.outboundUnicast, sending, if_true, Rust.pure_eq]

/-- The first node reads the packet and sends it to the second in one datagram. -/
theorem read_sample : ∃ node', (befriended 1 2).handle (.tun 6 samplePacket) =
    .ok (node', [.sendTo Sample.endpoint sampleDatagram]) := by
  have reached : (befriended 1 2).reaches 6 ⟨10, 10, 10, 2⟩ = true := rfl
  obtain ⟨node', effects, sending, sends⟩ :=
    Node.sendToPeer_reachable reached (show samplePacket.length ≤ 65536 by decide) (by decide)
  have dest : getDestIp samplePacket = .ok (some ⟨10, 10, 10, 2⟩) := rfl
  have unicast : ¬((⟨10, 10, 10, 2⟩ : Ipv4Addr) = (befriended 1 2).subnetBroadcast ∨
    (⟨10, 10, 10, 2⟩ : Ipv4Addr) = Ipv4Addr.broadcast) := by decide
  have run := handle_direct dest unicast sending
  obtain ⟨known, there, secured, at'⟩ := held_sample
  cases sends with
  | @packet _ _ _ _ _ peer session endpoint held connected established placed rest =>
      obtain rfl := Option.some.inj (there.symm.trans held)
      obtain rfl := Option.some.inj (secured.symm.trans established)
      obtain rfl := Option.some.inj (at'.symm.trans placed)
      rw [rest.effects_eq_nil] at run
      exact ⟨node', run⟩

/-- An event without a data packet opens to nothing. -/
theorem unforged_of_idle {mesh : Mesh Bool} {member : Bool} {event : Node.Event}
    (idle : ∀ now src bytes, event = .tunnel now src bytes → bytes.head? ≠ some pktData) :
    mesh.Unforged (member, event) := by
  rintro other publicKey secret nonce packet ⟨now, src, _, _, _, _, _, _, _, same, _⟩ _
  exact absurd rfl (idle now src _ same)

/-- What the sealed datagram opens to at the second node. -/
theorem opened_sample {publicKey : PublicKey} {secret : SharedSecret} {nonce : Nonce}
    {packet : List UInt8} (opens : (befriended 2 1).Opens (.tunnel 6 Sample.endpoint sampleDatagram)
      publicKey secret nonce packet) :
    publicKey = (Sample.keypair 1).publicKey ∧ secret = (Sample.session 1 2).cipher ∧
      nonce = (Sample.session 1 2).sendNonce ∧ packet = samplePacket := by
  obtain ⟨now, src, peerId, counter, ciphertext, mid, sender, peer, session, same, received, held,
    rfl, established, rfl, rfl⟩ := opens
  obtain ⟨rfl, rfl, bytes⟩ := Node.Event.tunnel.inj same
  have counters := (counter_buildDataPacket peerId counter ciphertext).symm
  rw [← bytes, sampleDatagram, counter_buildDataPacket] at counters
  obtain rfl := u64ToLeBytes_injective (Except.ok.inj counters)
  have expected : ((befriended 2 1).receiveData 6 Sample.endpoint sampleDatagram).map Prod.snd =
      .ok (some (⟨10, 10, 10, 1⟩, samplePacket)) := rfl
  rw [bytes, received] at expected
  cases expected
  cases held
  cases established
  exact ⟨rfl, rfl, rfl, rfl⟩

/-- The second node opens the sample datagram under the key of the first. -/
theorem opens_sample : (befriended 2 1).Opens (.tunnel 6 Sample.endpoint sampleDatagram)
    (Sample.keypair 1).publicKey (Sample.session 1 2).cipher (Sample.session 1 2).sendNonce
      samplePacket :=
  ⟨6, Sample.endpoint, _, _, _, _, _, _, _, rfl, rfl, rfl, rfl, rfl, rfl, rfl⟩

/-- The acts of the sample run, the last of which writes what the third read. -/
def sampleActs (reader writer : Node) : List (Act Bool) × Act Bool :=
  ([⟨false, newcomer 1, hearsFrom 2, befriended 1 2,
      [.sendTo Sample.endpoint (newcomer 1).greeting]⟩,
    ⟨true, newcomer 2, hearsFrom 1, befriended 2 1,
      [.sendTo Sample.endpoint (newcomer 2).greeting]⟩,
    ⟨false, befriended 1 2, .tun 6 samplePacket, reader,
      [.sendTo Sample.endpoint sampleDatagram]⟩],
    ⟨true, befriended 2 1, .tunnel 6 Sample.endpoint sampleDatagram, writer,
      [.writeTun samplePacket]⟩)

/-- A run in which the second member writes what the first one read. -/
theorem run_sample : ∃ trace reader writer,
    Run Step (pair (newcomer 1) (newcomer 2) []) trace
      (pair reader writer ((sampleActs reader writer).1 ++ [(sampleActs reader writer).2])) ∧
    Throughout Unforged trace ∧ reader.keypair = Sample.keypair 1 := by
  obtain ⟨reader, read⟩ := read_sample
  obtain ⟨writer, wrote⟩ : ∃ writer, (befriended 2 1).handle (.tunnel 6 Sample.endpoint
      sampleDatagram) = .ok (writer, [.writeTun samplePacket]) := ⟨_, rfl⟩
  have first : (newcomer 1).Does (hearsFrom 2) (befriended 1 2)
      [.sendTo Sample.endpoint (newcomer 1).greeting] := .handled rfl
  have second : (newcomer 2).Does (hearsFrom 1) (befriended 2 1)
      [.sendTo Sample.endpoint (newcomer 2).greeting] := .handled rfl
  have start : Run Step (pair (newcomer 1) (newcomer 2) []) [] _ := .refl
  have run := (((start.step (step_first first)).step (step_second second)).step
    (step_first (.handled read))).step (step_second (.handled wrote))
  refine ⟨_, reader, writer, run, ?_, (Node.step_of_handle read).sameSelf.keypair⟩
  refine throughout_snoc.mpr ⟨throughout_snoc.mpr ⟨throughout_snoc.mpr
    ⟨throughout_snoc.mpr ⟨.nil, ?_⟩, ?_⟩, ?_⟩, ?_⟩
  · exact unforged_of_idle fun now src bytes same => by
      obtain ⟨_, _, rfl⟩ := Node.Event.tunnel.inj same
      decide
  · exact unforged_of_idle fun now src bytes same => by
      obtain ⟨_, _, rfl⟩ := Node.Event.tunnel.inj same
      decide
  · exact unforged_of_idle fun now src bytes same => by cases same
  · intro other publicKey secret nonce packet opens shared
    obtain ⟨rfl, rfl, rfl, rfl⟩ := opened_sample opens
    refine ⟨⟨false, befriended 1 2, .tun 6 samplePacket, reader, _⟩,
      List.mem_append_right _ (List.mem_singleton_self _), ?_, (Sample.keypair 2).publicKey, ?_⟩
    · cases other
      · exact Or.inr rfl
      · have distinct : (Sample.session 1 2).cipher ≠ (Sample.session 2 2).cipher := by decide
        exact absurd shared distinct
    · exact ⟨6, Sample.session 1 2, Sample.endpoint, .read 6 samplePacket, SessionCipher.isFor_new _ _,
        rfl, rfl, List.mem_singleton_self _⟩

/-- The second member opens what the first one sealed. -/
theorem attributed_sample : ∃ cause sealedFor, Act.Seals cause sealedFor (Sample.session 1 2).cipher
    (Sample.session 1 2).sendNonce samplePacket ∧ (cause.member = false ∨
      cause.member = true ∧ sealedFor ≠ (Sample.keypair 1).publicKey) := by
  obtain ⟨trace, reader, writer, run, unforged, keys⟩ := run_sample
  have key : (pair reader writer ((sampleActs reader writer).1 ++
      [(sampleActs reader writer).2])).key false = (Sample.keypair 1).publicKey :=
    congrArg KeyPair.publicKey keys
  have opens : (sampleActs reader writer).2.Opens ((pair reader writer
      ((sampleActs reader writer).1 ++ [(sampleActs reader writer).2])).key false)
      (Sample.session 1 2).cipher (Sample.session 1 2).sendNonce samplePacket := by
    rw [key]
    exact opens_sample
  obtain ⟨cause, _, sealedFor, seals, member⟩ := attributed run pair_initial unforged rfl opens
  rw [key] at member
  exact ⟨cause, sealedFor, seals, member.imp And.left id⟩

/-- What the second member writes comes from the TUN device of the first. -/
theorem written_originates_sample : ∃ reader writer origin chain,
    Provenance (fun act => act.Reads samplePacket ∨ (pair reader writer
      ((sampleActs reader writer).1 ++ [(sampleActs reader writer).2])).FromStranger samplePacket act)
      (Act.Passes samplePacket) ((sampleActs reader writer).1 ++ [(sampleActs reader writer).2])
      origin chain (sampleActs reader writer).2 := by
  obtain ⟨trace, reader, writer, run, unforged, _⟩ := run_sample
  have there : (sampleActs reader writer).2 ∈ (pair reader writer
      ((sampleActs reader writer).1 ++ [(sampleActs reader writer).2])).history :=
    List.mem_append_right _ (List.mem_singleton_self _)
  exact ⟨reader, writer, written_originates run pair_initial unforged there (List.mem_singleton_self _)⟩

end Mesh
end Sample
end WolfNet
