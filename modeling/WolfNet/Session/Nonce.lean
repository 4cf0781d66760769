import Mathlib.Logic.Function.Basic
import WolfNet.Crates.Sample
import WolfNet.Semantics.Run
import WolfNet.Session.Link

/-!
# Nonces of a pair of nodes

Two nodes share one AEAD key for good: every session either of them establishes for
the other starts again at counter 0 under that key. The history records the key and
nonce of each AEAD call. `nonces_distinct_iff` is the exact condition under which no
nonce is used twice: the first packet of a session is encrypted only by a node that
encrypted nothing before.
-/

namespace WolfNet.NonceUse

open WolfNet.Std WolfNet.Semantics

/-- The two nodes of a pair. -/
inductive Side where
  | first
  | second
deriving DecidableEq

def Side.other : Side → Side
  | .first => .second
  | .second => .first

/-- The other of the other side is the side. -/
theorem Side.other_other (side : Side) : side.other.other = side := by
  cases side <;> rfl

/-- One AEAD encryption. -/
structure Use where
  side : Side
  key : SharedSecret
  nonce : Nonce
deriving DecidableEq

def Use.pair (use : Use) : SharedSecret × Nonce := (use.key, use.nonce)

/-- What either node does with one of its records for the other. -/
inductive Op where
  | establish (now : Instant)
  | encrypt (plaintext : List UInt8)
  | encryptInto (buf : List UInt8) (len : Nat)

section Runs

variable [Crates]

/-- The records that the nodes ever make for each other, and the encryptions so far. -/
structure Link where
  records : Side → Nat → Peer
  uses : List Use

/-- Replace one record. -/
def Link.withRecord (link : Link) (side : Side) (record : Nat) (peer : Peer) : Link :=
  { link with records := fun otherSide other =>
      if otherSide = side ∧ other = record then peer else link.records otherSide other }

/-- Note the key and nonce that an encryption with a record uses. -/
def Link.noteUse (link : Link) (side : Side) (record : Nat) : Link :=
  match (link.records side record).cipher with
  | some session => { link with uses := link.uses ++ [⟨side, session.cipher, session.sendNonce⟩] }
  | none => link

/-- Perform an operation on a record of one side. -/
def Link.perform (pairs : Side → KeyPair) (link : Link) (side : Side) (record : Nat) :
    Op → Rust Link
  | .establish now =>
    let peer := link.records side record
    return link.withRecord side record
      (peer.establishSession (pairs side).secret (pairs side).publicKey now)
  | .encrypt plaintext =>
    let (peer, _) := (link.records side record).encrypt plaintext
    return (link.noteUse side record).withRecord side record peer
  | .encryptInto buf len => do
    let (peer, _, _) ← (link.records side record).encryptInto buf len
    return (link.noteUse side record).withRecord side record peer

/-- A label names the side, the record and the operation. -/
abbrev Label := Side × Nat × Op

/-- Any interleaving of operations, with fewer than 2^64 encryptions. -/
def Step (pairs : Side → KeyPair) : Transition Link Label := fun link (side, record, op) next =>
  link.perform pairs side record op = .ok next ∧ next.uses.length < 2 ^ 64

/-- Before any session: every record is for the other node. -/
structure Initial (pairs : Side → KeyPair) (link : Link) : Prop where
  keyed : ∀ side record, (link.records side record).publicKey = (pairs side.other).publicKey
  sessionless : ∀ side record, (link.records side record).cipher = none
  unused : link.uses = []

/-- No two encryptions used one nonce under one key. -/
def NoncesDistinct (link : Link) : Prop := (link.uses.map Use.pair).Nodup

def Op.encrypts : Op → Bool
  | .establish _ => false
  | .encrypt _ => true
  | .encryptInto _ _ => true

/-- A session that has not sent yet encrypts only if its side never encrypted. -/
def FirstUse (link : Link) (label : Label) : Prop :=
  label.2.2.encrypts = true → ∀ session ∈ (link.records label.1 label.2.1).cipher,
    session.sendCounter = 0 → ∀ use ∈ link.uses, use.side ≠ label.1

instance (link : Link) (label : Label) : Decidable (FirstUse link label) := by
  unfold FirstUse
  infer_instance

variable {pairs : Side → KeyPair} {link next : Link} {side : Side} {record : Nat} {op : Op}

/-- Either encryption notes a use of the record's session and advances it. -/
theorem perform_encrypts (encrypts : op.encrypts = true)
    (run : link.perform pairs side record op = .ok next) :
    ∃ peer, peer.publicKey = (link.records side record).publicKey ∧
      peer.cipher = (link.records side record).cipher.map SessionCipher.sent ∧
      next = (link.noteUse side record).withRecord side record peer := by
  cases op with
  | establish now => cases encrypts
  | encrypt plaintext =>
      simp only [Link.perform, Rust.pure_eq, Except.ok.injEq] at run
      have sent := Peer.encrypt_sent (link.records side record) plaintext
      exact ⟨_, sent.2, sent.1, run.symm⟩
  | encryptInto buf len =>
      simp only [Link.perform, Rust.bind_eq_ok, Rust.pure_eq, Except.ok.injEq] at run
      obtain ⟨⟨peer, buf', result⟩, encrypted, rfl⟩ := run
      have sent := Peer.encryptInto_sent encrypted
      exact ⟨peer, sent.2, sent.1, rfl⟩

/-- An operation makes a session new, sends with it, or changes no session. -/
theorem perform_cases (run : link.perform pairs side record op = .ok next) :
    ∃ peer, peer.publicKey = (link.records side record).publicKey ∧
      next.records = (link.withRecord side record peer).records ∧
      ((∃ now, op = .establish now ∧ next.uses = link.uses ∧
          peer.cipher = some (SessionCipher.new
            (Crates.diffieHellman (pairs side).secret (link.records side record).publicKey)
            (pairs side).publicKey (link.records side record).publicKey)) ∨
        (op.encrypts = true ∧ ∃ session, (link.records side record).cipher = some session ∧
          peer.cipher = some session.sent ∧
          next.uses = link.uses ++ [⟨side, session.cipher, session.sendNonce⟩]) ∨
        ((link.records side record).cipher = none ∧ peer.cipher = none ∧
          next.uses = link.uses)) := by
  cases encrypts : op.encrypts with
  | false =>
      cases op with
      | establish now =>
          simp only [Link.perform, Rust.pure_eq, Except.ok.injEq] at run
          subst run
          exact ⟨(link.records side record).establishSession (pairs side).secret
            (pairs side).publicKey now, rfl, rfl, Or.inl ⟨now, rfl, rfl, rfl⟩⟩
      | encrypt plaintext => cases encrypts
      | encryptInto buf len => cases encrypts
  | true =>
      obtain ⟨peer, keyed, advanced, rfl⟩ := perform_encrypts encrypts run
      cases established : (link.records side record).cipher with
      | none =>
          rw [established] at advanced
          have noted : link.noteUse side record = link := by simp [Link.noteUse, established]
          exact ⟨peer, keyed, by rw [noted], Or.inr (Or.inr ⟨rfl, advanced, by rw [noted]; rfl⟩)⟩
      | some session =>
          rw [established] at advanced
          have noted : link.noteUse side record =
              { link with uses := link.uses ++ [⟨side, session.cipher, session.sendNonce⟩] } := by
            simp [Link.noteUse, established]
          exact ⟨peer, keyed, by rw [noted]; rfl,
            Or.inr (Or.inl ⟨rfl, session, rfl, advanced, by rw [noted]; rfl⟩)⟩

/-- The AEAD key that a side uses. -/
def key (pairs : Side → KeyPair) (side : Side) : SharedSecret :=
  Crates.diffieHellman (pairs side).secret (pairs side.other).publicKey

/-- The direction that a side seals in. -/
def isLow (pairs : Side → KeyPair) (side : Side) : Bool :=
  decide ((pairs side).publicKey.1 < (pairs side.other).publicKey.1)

/-- The sides of a pair with distinct keys seal in opposite directions. -/
theorem isLow_inj {other : Side} (distinct : (pairs .first).publicKey ≠ (pairs .second).publicKey)
    (same : isLow pairs side = isLow pairs other) : side = other := by
  have opposite : isLow pairs .second = !isLow pairs .first := lowSide_swap distinct
  cases side <;> cases other <;> simp [opposite] at same <;> rfl

/-- Each side has used the nonces of its counters below `sent`; one of its records
continues there, and its other sessions have not sent. -/
structure Ledger (pairs : Side → KeyPair) (link : Link) (sent owner : Side → Nat) : Prop where
  keyed : ∀ side record, (link.records side record).publicKey = (pairs side.other).publicKey
  isFor : ∀ {side record session}, (link.records side record).cipher = some session →
    session.IsFor (pairs side) (pairs side.other).publicKey
  position : ∀ {side record session}, (link.records side record).cipher = some session →
    session.sendCounter = 0 ∨
      (record = owner side ∧ session.sendCounter.toNat = sent side)
  past : ∀ use ∈ link.uses, ∃ counter : UInt64,
    use.nonce = makeNonce counter (isLow pairs use.side) ∧ counter.toNat < sent use.side
  first : ∀ side, sent side ≠ 0 →
    ⟨side, key pairs side, makeNonce 0 (isLow pairs side)⟩ ∈ link.uses
  count : ∀ side, sent side ≤ link.uses.length
  distinct : NoncesDistinct link

section Ledgers

variable {sent owner : Side → Nat} {session : SessionCipher}

/-- At the start nothing was sent and every session is fresh. -/
theorem Initial.ledger (initial : Initial pairs link) :
    Ledger pairs link (fun _ => 0) (fun _ => 0) where
  keyed := initial.keyed
  isFor established := by simp [initial.sessionless] at established
  position established := by simp [initial.sessionless] at established
  past := by simp [initial.unused]
  first side some := absurd rfl some
  count side := Nat.zero_le _
  distinct := by simp [NoncesDistinct, initial.unused]

/-- The use that an encryption with a session notes. -/
theorem Ledger.use_eq (ledger : Ledger pairs link sent owner)
    (established : (link.records side record).cipher = some session) :
    (⟨side, session.cipher, session.sendNonce⟩ : Use) =
      ⟨side, key pairs side, makeNonce session.sendCounter (isLow pairs side)⟩ := by
  have isFor := ledger.isFor established
  rw [SessionCipher.sendNonce, isFor.cipher, isFor.isLowSide]
  rfl

/-- Under the guard, a session that sends stands where its side's nonces end. -/
theorem Ledger.sendCounter_eq (ledger : Ledger pairs link sent owner)
    (established : (link.records side record).cipher = some session)
    (firstUse : session.sendCounter = 0 → ∀ use ∈ link.uses, use.side ≠ side) :
    session.sendCounter.toNat = sent side := by
  rcases ledger.position established with zero | ⟨_, continues⟩
  · have unsent : sent side = 0 := by
      by_contra used
      exact firstUse zero _ (ledger.first side used) rfl
    rw [zero, unsent]
    rfl
  · exact continues

/-- The nonce at the end of a side's nonces was not used before. -/
theorem Ledger.unused (ledger : Ledger pairs link sent owner)
    (distinct : (pairs .first).publicKey ≠ (pairs .second).publicKey) {counter : UInt64}
    (ends : counter.toNat = sent side) :
    ∀ use ∈ link.uses, use.nonce ≠ makeNonce counter (isLow pairs side) := by
  intro use member same
  obtain ⟨earlier, nonce, before⟩ := ledger.past use member
  rw [nonce] at same
  obtain ⟨rfl, direction⟩ := makeNonce_inj.mp same
  rw [isLow_inj distinct direction] at before
  omega

section Records

variable {peer : Peer} (ledger : Ledger pairs link sent owner)
  (records : next.records = (link.withRecord side record peer).records)
include ledger records

/-- A new record has the key of the other node, as the others have. -/
theorem Ledger.keyed_withRecord (keyed : peer.publicKey = (link.records side record).publicKey)
    (otherSide : Side) (other : Nat) :
    (next.records otherSide other).publicKey = (pairs otherSide.other).publicKey := by
  simp only [records, Link.withRecord]
  split
  · next same =>
      obtain ⟨rfl, rfl⟩ := same
      rw [keyed, ledger.keyed]
  · exact ledger.keyed otherSide other

/-- A new record has a session of its node's, as the others have. -/
theorem Ledger.isFor_withRecord
    (fits : ∀ session, peer.cipher = some session →
      session.IsFor (pairs side) (pairs side.other).publicKey)
    {otherSide : Side} {other : Nat} {session : SessionCipher}
    (established : (next.records otherSide other).cipher = some session) :
    session.IsFor (pairs otherSide) (pairs otherSide.other).publicKey := by
  simp only [records, Link.withRecord] at established
  split at established
  · next same =>
      obtain ⟨rfl, rfl⟩ := same
      exact fits session established
  · exact ledger.isFor established

/-- A record whose session is new or gone keeps the ledger. -/
theorem Ledger.withRecord (keyed : peer.publicKey = (link.records side record).publicKey)
    (uses : next.uses = link.uses)
    (fresh : ∀ session, peer.cipher = some session →
      session.IsFor (pairs side) (pairs side.other).publicKey ∧ session.sendCounter = 0) :
    Ledger pairs next sent owner where
  keyed := ledger.keyed_withRecord records keyed
  isFor := ledger.isFor_withRecord records fun session established => (fresh session established).1
  position := by
    intro otherSide other session established
    simp only [records, Link.withRecord] at established
    split at established
    · exact Or.inl (fresh session established).2
    · exact ledger.position established
  past := uses ▸ ledger.past
  first := uses ▸ ledger.first
  count := uses ▸ ledger.count
  distinct := by
    rw [NoncesDistinct, uses]
    exact ledger.distinct

/-- The record that sent owns its side's position; of two owners one has not sent. -/
theorem Ledger.position_send (established : (link.records side record).cipher = some session)
    (ends : session.sendCounter.toNat = sent side) (advanced : peer.cipher = some session.sent)
    (counter : session.sent.sendCounter.toNat = sent side + 1) {otherSide : Side} {other : Nat}
    {session' : SessionCipher}
    (established' : (next.records otherSide other).cipher = some session') :
    session'.sendCounter = 0 ∨
      (other = Function.update owner side record otherSide ∧
        session'.sendCounter.toNat = Function.update sent side (sent side + 1) otherSide) := by
  simp only [records, Link.withRecord] at established'
  split at established'
  · next same =>
      obtain ⟨rfl, rfl⟩ := same
      rw [advanced, Option.some.injEq] at established'
      rw [← established']
      exact Or.inr ⟨by simp, by simp [counter]⟩
  · next different =>
      rcases ledger.position established' with zero | ⟨owns, continues⟩
      · exact Or.inl zero
      · by_cases sameSide : otherSide = side
        · -- Two owners of one side's position can only stand at its beginning.
          subst sameSide
          rcases ledger.position established with zero | ⟨ownsToo, _⟩
          · left
            apply UInt64.toNat_inj.mp
            rw [continues, ← ends, zero]
          · exact absurd ⟨rfl, owns.trans ownsToo.symm⟩ different
        · exact Or.inr ⟨by simp [sameSide, owns], by simp [sameSide, continues]⟩

end Records

section Uses

variable (ledger : Ledger pairs link sent owner)
  (ends : session.sendCounter.toNat = sent side)
  (uses : next.uses = link.uses ++
    [⟨side, key pairs side, makeNonce session.sendCounter (isLow pairs side)⟩])
include ledger ends uses

/-- After a send every nonce is one from before, or the one of the send. -/
theorem Ledger.past_send (use : Use) (member : use ∈ next.uses) :
    ∃ counter : UInt64, use.nonce = makeNonce counter (isLow pairs use.side) ∧
      counter.toNat < Function.update sent side (sent side + 1) use.side := by
  rw [uses, List.mem_append, List.mem_singleton] at member
  rcases member with earlier | rfl
  · obtain ⟨counter, nonce, before⟩ := ledger.past use earlier
    refine ⟨counter, nonce, ?_⟩
    by_cases sameSide : use.side = side
    · simp only [sameSide, Function.update_self] at before ⊢
      omega
    · simpa [sameSide] using before
  · exact ⟨session.sendCounter, rfl, by simp [ends]⟩

/-- After a send the first nonce of each side that sent is in use. -/
theorem Ledger.first_send (otherSide : Side)
    (some : Function.update sent side (sent side + 1) otherSide ≠ 0) :
    ⟨otherSide, key pairs otherSide, makeNonce 0 (isLow pairs otherSide)⟩ ∈ next.uses := by
  rw [uses, List.mem_append, List.mem_singleton]
  by_cases sameSide : otherSide = side
  · subst sameSide
    by_cases unsent : sent otherSide = 0
    · right
      have zero : session.sendCounter = 0 := by
        apply UInt64.toNat_inj.mp
        rw [ends, unsent]
        rfl
      rw [zero]
    · exact Or.inl (ledger.first otherSide unsent)
  · exact Or.inl (ledger.first otherSide (by simpa [sameSide] using some))

/-- A send uses a nonce that was not used. -/
theorem Ledger.distinct_send (distinct : (pairs .first).publicKey ≠ (pairs .second).publicKey) :
    NoncesDistinct next := by
  rw [NoncesDistinct, uses, List.map_append, List.nodup_append]
  refine ⟨ledger.distinct, by simp, ?_⟩
  intro pair earlier last lastMember same
  obtain ⟨use, member, rfl⟩ := List.mem_map.mp earlier
  simp only [List.map_cons, List.map_nil, List.mem_singleton] at lastMember
  rw [lastMember] at same
  exact ledger.unused distinct ends use member (congrArg Prod.snd same)

end Uses

/-- No side sent more often than nonces were used. -/
theorem Ledger.count_send (ledger : Ledger pairs link sent owner) {use : Use}
    (uses : next.uses = link.uses ++ [use]) (otherSide : Side) :
    Function.update sent side (sent side + 1) otherSide ≤ next.uses.length := by
  have count := ledger.count otherSide
  have countHere := ledger.count side
  rw [uses, List.length_append, List.length_singleton]
  by_cases sameSide : otherSide = side
  · simp only [sameSide, Function.update_self]
    omega
  · simp only [ne_eq, sameSide, not_false_eq_true, Function.update_of_ne]
    omega

/-- A session that sends at the end of its side's nonces becomes their owner. -/
theorem Ledger.send {peer : Peer} (ledger : Ledger pairs link sent owner)
    (distinct : (pairs .first).publicKey ≠ (pairs .second).publicKey)
    (established : (link.records side record).cipher = some session)
    (ends : session.sendCounter.toNat = sent side)
    (keyed : peer.publicKey = (link.records side record).publicKey)
    (advanced : peer.cipher = some session.sent)
    (records : next.records = (link.withRecord side record peer).records)
    (uses : next.uses = link.uses ++ [⟨side, session.cipher, session.sendNonce⟩])
    (bounded : next.uses.length < 2 ^ 64) :
    Ledger pairs next (Function.update sent side (sent side + 1))
      (Function.update owner side record) := by
  rw [ledger.use_eq established] at uses
  have room : sent side + 1 < 2 ^ 64 := by
    have count := ledger.count side
    simp only [uses, List.length_append, List.length_singleton] at bounded
    omega
  have counter : session.sent.sendCounter.toNat = sent side + 1 := by
    simp only [SessionCipher.sent, UInt64.toNat_add, ends]
    exact Nat.mod_eq_of_lt room
  have isFor := ledger.isFor established
  exact {
    keyed := ledger.keyed_withRecord records keyed
    isFor := ledger.isFor_withRecord records fun session' established' => by
      rw [advanced, Option.some.injEq] at established'
      rw [← established']
      exact ⟨isFor.cipher, isFor.isLowSide⟩
    position := ledger.position_send records established ends advanced counter
    past := ledger.past_send ends uses
    first := ledger.first_send ends uses
    count := ledger.count_send uses
    distinct := ledger.distinct_send ends uses distinct }

end Ledgers

/-- Every admitted step keeps a ledger. -/
theorem Ledger.step {label : Label}
    (distinct : (pairs .first).publicKey ≠ (pairs .second).publicKey)
    (ledger : ∃ sent owner, Ledger pairs link sent owner) (firstUse : FirstUse link label)
    (transition : Step pairs link label next) : ∃ sent owner, Ledger pairs next sent owner := by
  obtain ⟨sent, owner, ledger⟩ := ledger
  obtain ⟨side, record, op⟩ := label
  obtain ⟨run, bounded⟩ := transition
  obtain ⟨peer, keyed, records, ⟨now, rfl, uses, fresh⟩ |
    ⟨encrypts, session, established, advanced, uses⟩ | ⟨_, sessionless, uses⟩⟩ := perform_cases run
  · refine ⟨sent, owner, ledger.withRecord records keyed uses ?_⟩
    intro session established
    rw [fresh, Option.some.injEq, ledger.keyed] at established
    rw [← established]
    exact ⟨SessionCipher.isFor_new _ _, rfl⟩
  · have ends := ledger.sendCounter_eq established (firstUse encrypts session established)
    exact ⟨_, _, ledger.send distinct established ends keyed advanced records uses bounded⟩
  · refine ⟨sent, owner, ledger.withRecord records keyed uses ?_⟩
    intro session established
    simp [sessionless] at established

/-- A step after which the nonces are still distinct was admitted. -/
theorem Ledger.firstUse {label : Label} (ledger : ∃ sent owner, Ledger pairs link sent owner)
    (transition : Step pairs link label next) (distinct : NoncesDistinct next) :
    FirstUse link label := by
  obtain ⟨sent, owner, ledger⟩ := ledger
  obtain ⟨side, record, op⟩ := label
  intro encrypts session established zero use member same
  obtain ⟨peer, _, _, ⟨now, rfl, _⟩ | ⟨_, session', established', _, uses⟩ | ⟨sessionless, _⟩⟩ :=
    perform_cases transition.1
  · simp [Op.encrypts] at encrypts
  · rw [Option.mem_def.mp established, Option.some.injEq] at established'
    subst established'
    obtain ⟨_, _, before⟩ := ledger.past use member
    rw [same] at before
    have repeated := ledger.first side (Nat.ne_zero_of_lt before)
    rw [NoncesDistinct, uses, ledger.use_eq established, zero, List.map_append,
      List.nodup_append] at distinct
    exact distinct.2.2 _ (List.mem_map_of_mem repeated) _ (by simp) rfl
  · simp [sessionless] at established

/-- In every run of two nodes with distinct keys, no nonce is used twice under one key
exactly when the first packet of a session is only ever encrypted by a node that
encrypted nothing before. -/
theorem nonces_distinct_iff (distinct : (pairs .first).publicKey ≠ (pairs .second).publicKey)
    {start last : Link} {trace : List (Link × Label)} (initial : Initial pairs start)
    (run : Run (Step pairs) start trace last) :
    Always NoncesDistinct trace last ↔ Throughout FirstUse trace :=
  run.always_iff (fun ⟨_, _, ledger⟩ => ledger.distinct) (Ledger.step distinct) Ledger.firstUse
    ⟨_, _, initial.ledger⟩

end Runs

section Sample

attribute [local instance] Sample.crates

def samplePairs : Side → KeyPair
  | .first => Sample.keypair 1
  | .second => Sample.keypair 2

/-- Two sample nodes that have no session yet. -/
def sampleLink : Link where
  records side _ := Peer.new (samplePairs side.other).publicKey ⟨10, 10, 10, 2⟩
  uses := []

/-- The sample nodes have fresh sessions. -/
theorem sampleLink_initial : Initial samplePairs sampleLink :=
  ⟨fun _ _ => rfl, fun _ _ => rfl, rfl⟩

/-- The link after an operation that does not panic. -/
def sampleNext (link : Link) (label : Label) : Link :=
  match link.perform samplePairs label.1 label.2.1 label.2.2 with
  | .ok next => next
  | .error _ => link

/-- Two sessions, one on each side, that are never established again. -/
def steadyLabels : List Label :=
  [(.first, 0, .establish 0), (.second, 0, .establish 0), (.first, 0, .encrypt [0x45]),
    (.second, 0, .encrypt [0x45]), (.first, 0, .encryptInto (List.replicate 18 0) 2)]

/-- Sends of both sides use distinct nonces. -/
theorem nonces_distinct_iff_sample :
    Run (Step samplePairs) sampleLink (traceOf sampleNext sampleLink steadyLabels)
      (steadyLabels.foldl sampleNext sampleLink) ∧
    Always NoncesDistinct (traceOf sampleNext sampleLink steadyLabels)
      (steadyLabels.foldl sampleNext sampleLink) := by
  have run : Run (Step samplePairs) sampleLink (traceOf sampleNext sampleLink steadyLabels)
      (steadyLabels.foldl sampleNext sampleLink) := by
    apply Run.of_traceOf
    simp only [steadyLabels, traceOf, List.forall_mem_cons, List.not_mem_nil, false_implies,
      implies_true, and_true]
    exact ⟨⟨rfl, by decide⟩, ⟨rfl, by decide⟩, ⟨rfl, by decide⟩, ⟨rfl, by decide⟩,
      ⟨rfl, by decide⟩⟩
  exact ⟨run, (nonces_distinct_iff (by decide) sampleLink_initial run).mpr (by decide)⟩

/-- A session that is established again after it sent, as every received handshake does. -/
def resetLabels : List Label :=
  [(.first, 0, .establish 0), (.first, 0, .encrypt [0x45]), (.first, 0, .establish 1),
    (.first, 0, .encrypt [0x60])]

/-- A node that encrypts, gets a handshake and encrypts again uses nonce 0 twice. -/
theorem nonce_used_twice :
    Run (Step samplePairs) sampleLink (traceOf sampleNext sampleLink resetLabels)
      (resetLabels.foldl sampleNext sampleLink) ∧
    ¬Always NoncesDistinct (traceOf sampleNext sampleLink resetLabels)
      (resetLabels.foldl sampleNext sampleLink) := by
  constructor
  · apply Run.of_traceOf
    simp only [resetLabels, traceOf, List.forall_mem_cons, List.not_mem_nil, false_implies,
      implies_true, and_true]
    exact ⟨⟨rfl, by decide⟩, ⟨rfl, by decide⟩, ⟨rfl, by decide⟩, ⟨rfl, by decide⟩⟩
  · exact fun always => absurd always.2 (by unfold NoncesDistinct; decide)

end Sample
end WolfNet.NonceUse
