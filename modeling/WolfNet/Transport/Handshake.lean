import WolfNet.Transport

/-!
# The handshake codec

A datagram of at least 40 bytes is a frame: a type byte, a key, four octets, a port, a flag and
the bytes of a name. The builder writes the frame of a handshake and the parser reads the
handshake of a frame, so that the codec loses what a flag byte and a name lose: `handshake_codec`.
-/

namespace WolfNet

open WolfNet.Std

/-- The fields of a datagram, as they lie on the wire. -/
@[ext] structure HandshakeFrame where
  type : UInt8
  publicKey : PublicKey
  wolfnetIp : Ipv4Addr
  listenPort : SizedBytes 2
  flag : UInt8
  hostname : List UInt8

namespace HandshakeFrame

def bytes (frame : HandshakeFrame) : List UInt8 :=
  let ip := frame.wolfnetIp
  frame.type :: (frame.publicKey.1 ++
    ip.a :: ip.b :: ip.c :: ip.d :: (frame.listenPort.1 ++ frame.flag :: frame.hostname))

/-- A frame has its 40 bytes and its name. -/
theorem length_bytes (frame : HandshakeFrame) :
    frame.bytes.length = 40 + frame.hostname.length := by
  simp only [bytes, List.length_cons, List.length_append, frame.publicKey.2, frame.listenPort.2]
  omega

/-- A frame is told by its bytes. -/
theorem bytes_injective : Function.Injective bytes := by
  intro frame other same
  obtain ⟨type, rest⟩ := List.cons.inj same
  obtain ⟨key, rest⟩ := List.append_inj rest (frame.publicKey.2.trans other.publicKey.2.symm)
  obtain ⟨a, rest⟩ := List.cons.inj rest
  obtain ⟨b, rest⟩ := List.cons.inj rest
  obtain ⟨c, rest⟩ := List.cons.inj rest
  obtain ⟨d, rest⟩ := List.cons.inj rest
  obtain ⟨port, rest⟩ := List.append_inj rest (frame.listenPort.2.trans other.listenPort.2.symm)
  obtain ⟨flag, hostname⟩ := List.cons.inj rest
  have ip : frame.wolfnetIp = other.wolfnetIp := by
    rw [Ipv4Addr.mk.injEq]
    exact ⟨a, b, c, d⟩
  exact HandshakeFrame.ext type (Subtype.ext key) ip (Subtype.ext port) flag hostname

variable {data : List UInt8}

/-- The key of a frame has 32 bytes. -/
theorem length_key (long : 40 ≤ data.length) : ((data.drop 1).take 32).length = 32 := by
  rw [List.length_take, List.length_drop]
  omega

/-- The port of a frame has two bytes. -/
theorem length_port (long : 40 ≤ data.length) : ((data.drop 37).take 2).length = 2 := by
  rw [List.length_take, List.length_drop]
  omega

/-- The frame of a datagram that is long enough. -/
def read (data : List UInt8) (long : 40 ≤ data.length) : HandshakeFrame where
  type := data[0]
  publicKey := ⟨(data.drop 1).take 32, length_key long⟩
  wolfnetIp := ⟨data[33], data[34], data[35], data[36]⟩
  listenPort := ⟨(data.drop 37).take 2, length_port long⟩
  flag := data[39]
  hostname := data.drop 40

/-- The fields of a frame cover its datagram. -/
theorem bytes_read (long : 40 ≤ data.length) : (read data long).bytes = data := by
  have key : (data.drop 1).take 32 ++ data.drop 33 = data.drop 1 := by
    rw [← List.drop_drop (i := 32) (j := 1), List.take_append_drop]
  have port : (data.drop 37).take 2 ++ data.drop 39 = data.drop 37 := by
    rw [← List.drop_drop (i := 2) (j := 37), List.take_append_drop]
  have item : ∀ i, (inside : i < data.length) → data[i] :: data.drop (i + 1) = data.drop i :=
    fun i inside => (List.drop_eq_getElem_cons inside).symm
  simp only [bytes, read]
  rw [item 39 (by omega), port, item 36 (by omega), item 35 (by omega), item 34 (by omega),
    item 33 (by omega), key, item 0 (by omega), List.drop_zero]

/-- The bytes in front of the flag. -/
theorem bytes_eq_append (frame : HandshakeFrame) :
    ∃ front : SizedBytes 39, frame.bytes = front.1 ++ frame.flag :: frame.hostname := by
  let ip := frame.wolfnetIp
  let front := frame.type :: (frame.publicKey.1 ++
    ip.a :: ip.b :: ip.c :: ip.d :: frame.listenPort.1)
  have sized : front.length = 39 := by
    simp only [front, List.length_cons, List.length_append, frame.publicKey.2, frame.listenPort.2]
  refine ⟨⟨front, sized⟩, ?_⟩
  simp [bytes, front, ip]

/-- Where the flag is. -/
theorem getElem_flag (frame : HandshakeFrame) : frame.bytes[39]? = some frame.flag := by
  obtain ⟨front, layout⟩ := frame.bytes_eq_append
  rw [layout, List.getElem?_append_right front.2.le, front.2]
  rfl

/-- Where the host name is. -/
theorem drop_hostname (frame : HandshakeFrame) : frame.bytes.drop 40 = frame.hostname := by
  obtain ⟨front, layout⟩ := frame.bytes_eq_append
  rw [layout, List.append_cons, List.drop_left']
  rw [List.length_append, front.2]
  rfl

/-- A frame is read back from its bytes. -/
theorem read_bytes (frame : HandshakeFrame) (long : 40 ≤ frame.bytes.length) :
    read frame.bytes long = frame :=
  bytes_injective (bytes_read long)

/-- The handshake that a frame is read as. -/
def handshake (frame : HandshakeFrame) : Handshake where
  publicKey := frame.publicKey
  wolfnetIp := frame.wolfnetIp
  listenPort := u16FromLeBytes frame.listenPort
  isGateway := frame.flag != 0
  hostname := fromUtf8Lossy frame.hostname

/-- A datagram is read by its frame, and refused for another type. -/
theorem parse_long (long : 40 ≤ data.length) :
    parseHandshake data = .ok (if (read data long).type = pktHandshake then
      some (read data long).handshake else none) := by
  rw [parseHandshake, if_neg (by omega), index_ok 0 (by omega), array, dif_pos (by omega),
    index_ok 33 (by omega), index_ok 34 (by omega), index_ok 35 (by omega), index_ok 36 (by omega),
    array, dif_pos (by omega), index_ok 39 (by omega), slice_ok (by omega) le_rfl,
    List.take_length]
  simp only [Rust.ok_bind, Rust.pure_eq]
  by_cases typed : data[0] = pktHandshake
  · rw [if_neg (not_not.mpr typed), if_pos (by exact typed)]
    rfl
  · rw [if_pos typed, if_neg (by exact typed)]

/-- A frame of the type is parsed. -/
theorem parse_bytes (frame : HandshakeFrame) (typed : frame.type = pktHandshake) :
    parseHandshake frame.bytes = .ok (some frame.handshake) := by
  have long : 40 ≤ frame.bytes.length := by
    rw [frame.length_bytes]
    omega
  rw [parse_long long, read_bytes, if_pos typed]

/-- Shorter datagrams are none. -/
theorem parse_short (short : data.length < 40) : parseHandshake data = .ok none := by
  rw [parseHandshake, if_pos short]
  rfl

/-- A handshake is parsed exactly from the frames of the type. -/
theorem parse_eq_some {hs : Handshake} :
    parseHandshake data = .ok (some hs) ↔
      ∃ frame : HandshakeFrame, frame.bytes = data ∧ frame.type = pktHandshake ∧
        frame.handshake = hs := by
  constructor
  · intro parsed
    by_cases long : 40 ≤ data.length
    · rw [parse_long long, Except.ok.injEq, Option.ite_none_right_eq_some,
        Option.some.injEq] at parsed
      exact ⟨read data long, bytes_read long, parsed⟩
    · rw [parse_short (by omega)] at parsed
      cases parsed
  · rintro ⟨frame, rfl, typed, rfl⟩
    exact frame.parse_bytes typed

end HandshakeFrame

namespace Handshake

/-- The frame that `build_handshake` lays out, which takes no more of a key pair than its public
key. -/
def frame (hs : Handshake) : HandshakeFrame where
  type := pktHandshake
  publicKey := hs.publicKey
  wolfnetIp := hs.wolfnetIp
  listenPort := u16ToLeBytes hs.listenPort
  flag := if hs.isGateway then 1 else 0
  hostname := utf8Bytes hs.hostname

/-- What is built is the frame of the handshake. -/
theorem buildHandshake_eq [Crates] (keypair : KeyPair) (wolfnetIp : Ipv4Addr) (listenPort : UInt16)
    (hostname : String) (isGateway : Bool) :
    buildHandshake keypair wolfnetIp listenPort hostname isGateway =
      (frame ⟨keypair.publicKey, wolfnetIp, listenPort, isGateway, hostname⟩).bytes := by
  simp [buildHandshake, HandshakeFrame.bytes, frame]

/-- Every field is read as it was written. -/
theorem handshake_frame (hs : Handshake) : hs.frame.handshake = hs := by
  have flag : ((if hs.isGateway then 1 else 0 : UInt8) != 0) = hs.isGateway := by
    cases hs.isGateway <;> rfl
  have name : fromUtf8Lossy (utf8Bytes hs.hostname) = hs.hostname := fromUtf8Lossy_utf8 hs.hostname
  simp only [HandshakeFrame.handshake, frame, u16FromLeBytes_toLeBytes, flag, name]

/-- Every field is read where `build_handshake` wrote it. -/
theorem parseHandshake_build [Crates] (keypair : KeyPair) (wolfnetIp : Ipv4Addr)
    (listenPort : UInt16) (hostname : String) (isGateway : Bool) :
    parseHandshake (buildHandshake keypair wolfnetIp listenPort hostname isGateway) =
      .ok (some ⟨keypair.publicKey, wolfnetIp, listenPort, isGateway, hostname⟩) := by
  rw [buildHandshake_eq, HandshakeFrame.parse_bytes _ rfl, handshake_frame]

end Handshake

/-- Every field is written as it was read, given a flag byte and a name that the builder writes. -/
theorem HandshakeFrame.frame_handshake {frame : HandshakeFrame} {text : String}
    (typed : frame.type = pktHandshake) (flag : frame.flag = 0 ∨ frame.flag = 1)
    (decoded : fromUtf8 frame.hostname = some text) : frame.handshake.frame = frame := by
  have name : utf8Bytes (fromUtf8Lossy frame.hostname) = frame.hostname := by
    have bytes : utf8 text = frame.hostname := utf8_of_fromUtf8 decoded
    rw [← bytes, fromUtf8Lossy_utf8]
    rfl
  have byte : (if (frame.flag != 0) = true then 1 else 0) = frame.flag := by
    rcases flag with off | on
    · rw [off]
      rfl
    · rw [on]
      rfl
  refine HandshakeFrame.ext typed.symm rfl rfl ?_ byte name
  exact u16ToLeBytes_fromLeBytes frame.listenPort

/-- The fields of a handshake lie within the 40 bytes that are checked for. -/
theorem parseHandshake_ok (data : List UInt8) : ∃ parsed, parseHandshake data = .ok parsed := by
  by_cases long : 40 ≤ data.length
  · exact ⟨_, HandshakeFrame.parse_long long⟩
  · exact ⟨none, HandshakeFrame.parse_short (by omega)⟩

/-- The datagrams that are accepted. -/
theorem parseHandshake_accepts_iff {data : List UInt8} :
    (∃ hs, parseHandshake data = .ok (some hs)) ↔
      40 ≤ data.length ∧ data.head? = some pktHandshake := by
  constructor
  · rintro ⟨hs, parsed⟩
    obtain ⟨frame, rfl, typed, _⟩ := HandshakeFrame.parse_eq_some.mp parsed
    refine ⟨?_, congrArg some typed⟩
    rw [frame.length_bytes]
    omega
  · rintro ⟨long, typed⟩
    have type : (HandshakeFrame.read data long).type = pktHandshake := by
      rw [List.head?_eq_getElem?, List.getElem?_eq_getElem (by omega)] at typed
      exact Option.some.inj typed
    exact ⟨_, HandshakeFrame.parse_eq_some.mpr ⟨_, HandshakeFrame.bytes_read long, type, rfl⟩⟩

/-- Building a handshake lays out its fields whatever the key, and parsing gives exactly them.
The datagrams accepted are those of at least 40 bytes with the handshake's type, and each of them
is built again from its fields if its flag byte is 0 or 1 and its name is UTF-8. -/
theorem handshake_codec [Crates] :
    (∀ (keypair : KeyPair) (wolfnetIp : Ipv4Addr) (listenPort : UInt16) (hostname : String)
      (isGateway : Bool), buildHandshake keypair wolfnetIp listenPort hostname isGateway =
        (Handshake.frame ⟨keypair.publicKey, wolfnetIp, listenPort, isGateway, hostname⟩).bytes) ∧
    (∀ hs : Handshake, parseHandshake hs.frame.bytes = .ok (some hs)) ∧
    (∀ data, (∃ hs, parseHandshake data = .ok (some hs)) ↔
      40 ≤ data.length ∧ data.head? = some pktHandshake) ∧
    ∀ data hs, parseHandshake data = .ok (some hs) → data[39]? = some 0 ∨ data[39]? = some 1 →
      (∃ text, fromUtf8 (data.drop 40) = some text) → hs.frame.bytes = data := by
  refine ⟨Handshake.buildHandshake_eq, fun hs => ?_, fun _ => parseHandshake_accepts_iff, ?_⟩
  · rw [hs.frame.parse_bytes rfl, hs.handshake_frame]
  · intro data hs parsed flag decodes
    obtain ⟨frame, rfl, typed, rfl⟩ := HandshakeFrame.parse_eq_some.mp parsed
    obtain ⟨text, decoded⟩ := decodes
    rw [frame.getElem_flag] at flag
    rw [frame.drop_hostname] at decoded
    rw [HandshakeFrame.frame_handshake typed (flag.imp Option.some.inj Option.some.inj) decoded]

end WolfNet
