/-
# The frame of a command tells which command it is

Nothing is escaped in a frame and nothing stands between a mnemonic and its arguments. Still a
frame tells its body: three bytes stand behind it, whatever they are (`Packet.encode_injective`).
And a body tells its command, unless somebody wrote it by hand: the third letter is the kind of
command, and what an address and a length are is told by the one comma between them
(`Command.eq_of_body_eq`). A body that is written by hand is that of any command that happens to
have the same text (`Command.encode_unambiguous`).

Key definitions: `Command.body`, `Command.IsRaw`.
Key theorems: `Packet.encode_injective`, `Command.encode_eq_iff`, `Command.encode_unambiguous`.
-/
import ProbeLink.Proofs.Figures

namespace ProbeLink

theorem PacketKind.mark_injective : Function.Injective PacketKind.mark := by
  intro kind kind' h
  cases kind with
  | reply =>
    cases kind' with
    | reply => rfl
    | notification => exact absurd h (by decide)
  | notification =>
    cases kind' with
    | reply => exact absurd h (by decide)
    | notification => rfl

/-- **A packet is known by its frame.** The two checksum characters and the end mark stand at the
end of it, so an end mark in the payload does no harm. -/
theorem Packet.encode_injective : Function.Injective Packet.encode := by
  rintro ⟨kind, payload, first, second⟩ ⟨kind', payload', first', second'⟩ h
  obtain ⟨hfront, hback⟩ := List.append_inj' h rfl
  obtain ⟨hmark, rfl⟩ := List.cons.inj hfront
  obtain rfl : kind = kind' := PacketKind.mark_injective hmark
  cases hback
  rfl

namespace Hex

/-- A number is known by its digits. -/
theorem numeral_injective {v w : UInt64} (h : numeral v.toNat = numeral w.toNat) : v = w := by
  have hv := (shortest_numeral v.toNat).unsigned
  rw [h, (shortest_numeral w.toNat).unsigned] at hv
  exact UInt64.toNat_inj.mp (Option.some.inj hv).symm

end Hex

namespace Command

/-- The text between the marks of the frame. -/
def body (c : Command) : String := c.mnemonic ++ c.payload

/-- The body was written by hand. -/
def IsRaw : Command → Prop
  | raw _ _ => True
  | _ => False

variable {c d : Command}

/-- **Frames are equal just if bodies are.** -/
theorem encode_eq_iff : c.encode = d.encode ↔ c.body = d.body := by
  have hpayload : ∀ c : Command, textBytes c.mnemonic ++ textBytes c.payload = textBytes c.body :=
    fun c => (textBytes_append _ _).symm
  rw [encode, encode, commandFrame_eq_encode, commandFrame_eq_encode, hpayload, hpayload]
  constructor
  · intro h
    exact textBytes_injective (congrArg Packet.payload (Packet.encode_injective h))
  · intro h
    rw [h]

/-- A body that was not written by hand begins with a word of three letters, so it falls into the
mnemonic and the arguments in one way. -/
theorem mnemonic_eq_of_body_eq (hc : ¬c.IsRaw) (hd : ¬d.IsRaw) (h : c.body = d.body) :
    c.mnemonic = d.mnemonic ∧ c.payload = d.payload := by
  have hlength : ∀ c : Command, ¬c.IsRaw → c.mnemonic.toList.length = 3 := by
    intro c hc
    cases c with
    | raw => exact absurd trivial hc
    | registers => exact (by decide : "vTR".toList.length = 3)
    | memory => exact (by decide : "vTM".toList.length = 3)
    | arguments => exact (by decide : "vTA".toList.length = 3)
  have hchars := congrArg String.toList h
  rw [body, body, String.toList_append, String.toList_append] at hchars
  obtain ⟨hfront, hback⟩ := List.append_inj hchars ((hlength c hc).trans (hlength d hd).symm)
  exact ⟨String.toList_inj.mp hfront, String.toList_inj.mp hback⟩

/-- **A body tells the command** that it is the body of, among those that are not written by
hand. -/
theorem eq_of_body_eq (hc : ¬c.IsRaw) (hd : ¬d.IsRaw) (h : c.body = d.body) : c = d := by
  obtain ⟨hmnemonic, hpayload⟩ := mnemonic_eq_of_body_eq hc hd h
  cases c with
  | raw => exact absurd trivial hc
  | registers symbol =>
    cases d with
    | raw => exact absurd trivial hd
    | registers symbol' => exact congrArg registers hpayload
    | memory | arguments => simp [mnemonic] at hmnemonic
  | arguments function =>
    cases d with
    | raw => exact absurd trivial hd
    | arguments function' => exact congrArg arguments hpayload
    | registers | memory => simp [mnemonic] at hmnemonic
  | memory addr length =>
    cases d with
    | raw => exact absurd trivial hd
    | memory addr' length' =>
      obtain ⟨haddr, hlength⟩ := Prompt.split_comma
        (Hex.shortest_numeral addr.toNat).comma_notMem
        (Hex.shortest_numeral length.toNat).comma_notMem hpayload
      rw [Hex.numeral_injective haddr, Hex.numeral_injective hlength]
    | registers | arguments => simp [mnemonic] at hmnemonic

/-- **No two commands have a frame in common**, unless one of them was written by hand. The frame
of that one is the frame of every command whose mnemonic and arguments make the same text, and of
no other. The texts may have marks and commas in them. -/
theorem encode_unambiguous (c d : Command) :
    (c.encode = d.encode ↔ c.mnemonic ++ c.payload = d.mnemonic ++ d.payload) ∧
    (¬c.IsRaw → ¬d.IsRaw → (c.encode = d.encode ↔ c = d)) := by
  refine ⟨encode_eq_iff, fun hc hd => ⟨fun h => ?_, fun h => h ▸ rfl⟩⟩
  exact eq_of_body_eq hc hd (encode_eq_iff.mp h)

/-- With the same marks in their arguments two commands stay apart, and what is written by hand
meets one of them. -/
theorem encode_unambiguous_marks :
    ¬(registers "a#,$").IsRaw ∧ ¬(arguments "a#,$").IsRaw ∧
      (registers "a#,$").encode ≠ (arguments "a#,$").encode ∧
      (raw "v" "TRa#,$").encode = (registers "a#,$").encode := by
  have hdiffer := (encode_unambiguous (registers "a#,$") (arguments "a#,$")).2 id id
  refine ⟨id, id, fun h => absurd (hdiffer.mp h) (by decide), ?_⟩
  exact (encode_unambiguous (raw "v" "TRa#,$") (registers "a#,$")).1.mpr (by decide)

end Command

end ProbeLink
