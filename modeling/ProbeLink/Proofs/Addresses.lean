/-
# An address that is shown can be typed back, or it was typed with `serial:`

A text is read as an address by its form (`Address.Reads`): behind the scheme `tcp:` stands a host
and a port, behind `serial:` anything at all, and without a scheme a host and a port or else a
path. A socket is shown with its scheme, so it is read back. A device is shown as its path alone.
That path is read back if it could have been typed without a scheme (`Address.Bare`), and it
could unless it was typed behind `serial:` (`Address.parse_display_iff`).

Key definitions: `Address.IsHostPort`, `Address.Reads`, `Address.Bare`.
Key theorems: `Address.isHostPort_iff`, `Address.ofTrimmed_eq_ok_iff`,
`Address.parse_display_iff`.
-/
import ProbeLink.Address
import ProbeLink.Proofs.Phrases

namespace ProbeLink

namespace Address

variable {cs host port : List Char} {a : Address}

/-! ### A host and a port -/

/-- The text is a host and a port with the last colon between them. The host is not empty, and the
port is a number of 16 bits. -/
def IsHostPort (cs : List Char) : Prop :=
  ∃ host port v, cs = host ++ ':' :: port ∧ host ≠ [] ∧ ':' ∉ port ∧ Text.Signed 10 port v ∧
    v ≤ 65535

/-- **A text is split at its last colon.** -/
theorem splitLastColon?_eq_some_iff :
    splitLastColon? cs = some (host, port) ↔ cs = host ++ ':' :: port ∧ ':' ∉ port := by
  constructor
  · intro h
    have hsplit := List.takeWhile_append_dropWhile (p := (· ≠ ':')) (l := cs.reverse)
    simp only [splitLastColon?] at h
    split at h
    · rename_i d front hback
      have hhead : (decide (d ≠ ':')) = false :=
        Text.head_dropWhile cs.reverse d (by rw [hback]; rfl)
      have hcolon : d = ':' := by simpa using hhead
      obtain ⟨rfl, rfl⟩ := Prod.mk.inj (Option.some.inj h)
      rw [hback, hcolon] at hsplit
      refine ⟨?_, fun hmem => ?_⟩
      · have hcs := congrArg List.reverse hsplit
        simpa using hcs.symm
      · simpa using List.mem_takeWhile_imp (List.mem_reverse.mp hmem)
    · cases h
  · rintro ⟨rfl, hport⟩
    have hback : (host ++ ':' :: port).reverse = port.reverse ++ ':' :: host.reverse := by simp
    have hkeep : ∀ c ∈ port.reverse, (decide (c ≠ ':')) = true := fun c hc => by
      simpa using ne_of_mem_of_not_mem (List.mem_reverse.mp hc) hport
    have htake : (port.reverse ++ ':' :: host.reverse).takeWhile (· ≠ ':') = port.reverse :=
      Text.takeWhile_append_of_stop hkeep (by simp)
    simp only [splitLastColon?, hback, htake, List.dropWhile_append_of_pos hkeep]
    simp

theorem isHostPort_iff : isHostPort cs = true ↔ IsHostPort cs := by
  have hport : ∀ port : List Char, (Text.unsigned? 10 65536 port).isSome = true ↔
      ∃ v, Text.Signed 10 port v ∧ v ≤ 65535 := by
    intro port
    rw [Option.isSome_iff_exists]
    refine exists_congr fun v => ?_
    rw [Text.unsigned?_eq_some_iff (by decide), and_comm, Nat.lt_succ_iff]
  unfold isHostPort
  split
  · rename_i host port h
    obtain ⟨hcs, hcolon⟩ := splitLastColon?_eq_some_iff.mp h
    rw [Bool.and_eq_true, hport]
    constructor
    · rintro ⟨hhost, v, hv⟩
      exact ⟨host, port, v, hcs, by simpa using hhost, hcolon, hv⟩
    · rintro ⟨host', port', v, hcs', hhost', hcolon', hv⟩
      have hsame := splitLastColon?_eq_some_iff.mpr ⟨hcs', hcolon'⟩
      obtain ⟨rfl, rfl⟩ := Prod.mk.inj (Option.some.inj (h.symm.trans hsame))
      exact ⟨by simpa using hhost', v, hv⟩
  · rename_i hnone
    refine ⟨nofun, ?_⟩
    rintro ⟨host, port, v, hcs, -, hcolon, -⟩
    rw [splitLastColon?_eq_some_iff.mpr ⟨hcs, hcolon⟩] at hnone
    cases hnone

/-! ### The forms of addresses -/

def tcpScheme : List Char := ['t', 'c', 'p', ':']
def serialScheme : List Char := ['s', 'e', 'r', 'i', 'a', 'l', ':']

/-- The text has no scheme. -/
def Unschemed (cs : List Char) : Prop := ¬tcpScheme <+: cs ∧ ¬serialScheme <+: cs

/-- The text is a path if it has no scheme: it starts with a slash or is no host and port. -/
def IsPath (cs : List Char) : Prop := cs.head? = some '/' ∨ ¬IsHostPort cs

/-- What a text without blanks at its ends names by its form. -/
inductive Reads : List Char → Address → Prop where
  | tcp {rest : List Char} (socket : IsHostPort rest) :
      Reads (tcpScheme ++ rest) (.tcp (String.ofList rest))
  | serial {rest : List Char} : Reads (serialScheme ++ rest) (.serial (String.ofList rest))
  | socket {cs : List Char} (unschemed : Unschemed cs) (relative : cs.head? ≠ some '/')
      (socket : IsHostPort cs) : Reads cs (.tcp (String.ofList cs))
  | path {cs : List Char} (unschemed : Unschemed cs) (some : cs ≠ []) (path : IsPath cs) :
      Reads cs (.serial (String.ofList cs))

theorem behind?_append (lead rest : List Char) : behind? lead (lead ++ rest) = some rest := by
  simp [behind?]

theorem behind?_eq_none_iff {lead : List Char} : behind? lead cs = none ↔ ¬lead <+: cs := by
  simp [behind?]

theorem unschemed_iff : Unschemed cs ↔ behind? ['t', 'c', 'p', ':'] cs = none ∧
    behind? ['s', 'e', 'r', 'i', 'a', 'l', ':'] cs = none := by
  rw [behind?_eq_none_iff, behind?_eq_none_iff]
  rfl

theorem eq_append_of_behind? {lead rest : List Char} (h : behind? lead cs = some rest) :
    cs = lead ++ rest := by
  unfold behind? at h
  split at h
  · rename_i hlead
    obtain ⟨r, rfl⟩ := List.isPrefixOf_iff_prefix.mp hlead
    rw [List.drop_left] at h
    rw [Option.some.inj h]
  · cases h

/-- What is read has the form. -/
theorem reads_of_ofTrimmed (h : ofTrimmed cs = .ok a) : Reads cs a := by
  unfold ofTrimmed at h
  split at h
  · cases h
  · rename_i hsome
    split at h
    · rename_i rest htcp
      split at h
      · rename_i hsocket
        cases h
        rw [eq_append_of_behind? htcp]
        exact .tcp (isHostPort_iff.mp hsocket)
      · cases h
    · rename_i htcp
      split at h
      · rename_i rest hserial
        cases h
        rw [eq_append_of_behind? hserial]
        exact .serial
      · rename_i hserial
        have hunschemed : Unschemed cs := unschemed_iff.mpr ⟨htcp, hserial⟩
        split at h
        · rename_i hsocket
          cases h
          exact .socket hunschemed hsocket.1 (isHostPort_iff.mp hsocket.2)
        · rename_i hpath
          cases h
          refine .path hunschemed hsome ?_
          rw [not_and_or, not_ne_iff, isHostPort_iff] at hpath
          exact hpath

/-- **A text is read by its form.** -/
theorem ofTrimmed_eq_ok_iff : ofTrimmed cs = .ok a ↔ Reads cs a := by
  refine ⟨reads_of_ofTrimmed, ?_⟩
  intro h
  cases h with
  | @tcp rest socket =>
    have hsome : tcpScheme ++ rest ≠ [] := List.cons_ne_nil _ _
    have htcp : behind? ['t', 'c', 'p', ':'] (tcpScheme ++ rest) = some rest :=
      behind?_append tcpScheme rest
    simp only [ofTrimmed, hsome, htcp, isHostPort_iff.mpr socket, if_false, if_true]
  | @serial rest =>
    have hsome : serialScheme ++ rest ≠ [] := List.cons_ne_nil _ _
    have htcp : behind? ['t', 'c', 'p', ':'] (serialScheme ++ rest) = none := rfl
    have hserial : behind? ['s', 'e', 'r', 'i', 'a', 'l', ':'] (serialScheme ++ rest) = some rest :=
      behind?_append serialScheme rest
    simp only [ofTrimmed, hsome, htcp, hserial, if_false]
  | socket unschemed relative socket =>
    have hsome : cs ≠ [] := by
      obtain ⟨host, port, v, rfl, -⟩ := socket
      exact List.append_ne_nil_of_right_ne_nil _ (List.cons_ne_nil _ _)
    obtain ⟨htcp, hserial⟩ := unschemed_iff.mp unschemed
    have hsocket : cs.head? ≠ some '/' ∧ isHostPort cs = true :=
      ⟨relative, isHostPort_iff.mpr socket⟩
    simp only [ofTrimmed, hsome, htcp, hserial, if_false, if_pos hsocket]
  | path unschemed some path =>
    obtain ⟨htcp, hserial⟩ := unschemed_iff.mp unschemed
    have hpath : ¬(cs.head? ≠ Option.some '/' ∧ isHostPort cs = true) := by
      rw [isHostPort_iff, not_and_or, not_ne_iff]
      exact path
    simp only [ofTrimmed, some, htcp, hserial, if_false, if_neg hpath]

/-! ### What is shown and typed back -/

/-- A path that could have been typed as it is. -/
structure Bare (path : String) : Prop where
  some : path ≠ ""
  head : ∀ c ∈ path.toList.head?, Text.isBlank c = false
  last : ∀ c ∈ path.toList.getLast?, Text.isBlank c = false
  unschemed : Unschemed path.toList
  path : IsPath path.toList

/-- The last character of a socket is a digit. -/
theorem IsHostPort.last (h : IsHostPort cs) :
    cs ≠ [] ∧ ∀ c ∈ cs.getLast?, Text.isBlank c = false := by
  obtain ⟨host, port, v, rfl, -, -, hport, -⟩ := h
  have hplain := Prompt.Signed.plain hport
  refine ⟨List.append_ne_nil_of_right_ne_nil _ (List.cons_ne_nil _ _), fun c hc => ?_⟩
  rw [List.append_cons, List.getLast?_append_of_ne_nil _ hplain.some] at hc
  exact hplain.full c (List.mem_of_getLast? hc)

/-- **A socket that is shown can be typed back.** -/
theorem parse_display_tcp {rest : List Char} (h : IsHostPort rest) :
    parse (tcp (String.ofList rest)).display = .ok (.tcp (String.ofList rest)) := by
  have hshown : (tcp (String.ofList rest)).display.toList = tcpScheme ++ rest := by
    simp [display, tcpScheme]
  have htrim : Text.trim (tcpScheme ++ rest) = tcpScheme ++ rest := by
    refine Text.trim_eq_self_iff.mpr ⟨?_, ?_⟩
    · rintro c ⟨⟩
      decide
    · rw [List.getLast?_append_of_ne_nil _ h.last.1]
      exact h.last.2
  rw [parse, hshown, htrim, ofTrimmed_eq_ok_iff]
  exact .tcp h

theorem bare_ofList (some : cs ≠ []) (head : ∀ c ∈ cs.head?, Text.isBlank c = false)
    (last : ∀ c ∈ cs.getLast?, Text.isBlank c = false) (unschemed : Unschemed cs)
    (path : IsPath cs) : Bare (String.ofList cs) := by
  refine ⟨fun hnil => some (by simpa using congrArg String.toList hnil), ?_, ?_, ?_, ?_⟩
  all_goals
    rw [String.toList_ofList]
    assumption

/-- **A device that is shown can be typed back** just if its path can be typed as it is. -/
theorem parse_display_serial_iff (path : String) :
    parse (serial path).display = .ok (.serial path) ↔ Bare path := by
  change ofTrimmed (Text.trim path.toList) = _ ↔ _
  rw [ofTrimmed_eq_ok_iff]
  constructor
  · intro h
    generalize htext : Text.trim path.toList = text at h
    cases h with
    | @serial rest =>
      -- a path that was read behind the scheme is shorter than the text
      have hle := Text.length_trim_le (String.ofList rest).toList
      rw [htext, String.toList_ofList, List.length_append] at hle
      have hscheme : serialScheme.length = 7 := rfl
      omega
    | path unschemed some path =>
      rw [String.toList_ofList] at htext
      obtain ⟨hhead, hlast⟩ := Text.trim_eq_self_iff.mp htext
      exact bare_ofList some hhead hlast unschemed path
  · rintro ⟨hsome, hhead, hlast, hunschemed, hpath⟩
    rw [Text.trim_eq_self_iff.mpr ⟨hhead, hlast⟩]
    have hread := Reads.path hunschemed (String.toList_eq_nil_iff.not.mpr hsome) hpath
    rwa [String.ofList_toList] at hread

/-- What was read without the scheme of devices can be typed as it is. -/
theorem bare_of_reads {path : String} (h : Reads (Text.trim cs) (.serial path))
    (hscheme : ¬serialScheme <+: Text.trim cs) : Bare path := by
  obtain ⟨hhead, hlast⟩ := Text.trim_ends cs
  generalize Text.trim cs = text at h hscheme hhead hlast
  cases h with
  | serial => exact absurd (List.prefix_append _ _) hscheme
  | path unschemed some path =>
    exact bare_ofList some hhead hlast unschemed path

/-- **What is shown can be typed back**, unless it was typed behind `serial:` and its path could not
have been typed without. -/
theorem parse_display_iff {text : String} (h : parse text = .ok a) :
    (parse a.display = .ok a ↔ ∀ path, a = .serial path → Bare path) ∧
    (¬serialScheme <+: Text.trim text.toList → parse a.display = .ok a) := by
  have hreads : Reads (Text.trim text.toList) a := ofTrimmed_eq_ok_iff.mp h
  have hiff : parse a.display = .ok a ↔ ∀ path, a = .serial path → Bare path := by
    cases a with
    | serial path =>
      rw [parse_display_serial_iff]
      exact ⟨fun hbare _ heq => serial.inj heq ▸ hbare, fun hall => hall path rfl⟩
    | tcp hostPort =>
      refine iff_of_true ?_ nofun
      generalize Text.trim text.toList = cs at hreads
      cases hreads with
      | tcp socket => exact parse_display_tcp socket
      | socket _ _ socket => exact parse_display_tcp socket
  refine ⟨hiff, fun hscheme => hiff.mpr ?_⟩
  rintro path rfl
  exact bare_of_reads hreads hscheme

/-- A path with a colon and a number is shown as it was typed, whatever scheme it had. -/
theorem parse_display_slash :
    parse "serial:/dev/a:80" = .ok (.serial "/dev/a:80") ∧ Bare "/dev/a:80" ∧
      parse (serial "/dev/a:80").display = .ok (.serial "/dev/a:80") := by
  have hparse : parse "serial:/dev/a:80" = .ok (.serial "/dev/a:80") := by decide
  have hbare : Bare "/dev/a:80" := by
    refine ⟨by decide, by decide, by decide, ⟨by decide, by decide⟩, .inl rfl⟩
  refine ⟨hparse, hbare, (parse_display_iff hparse).1.mpr ?_⟩
  rintro path ⟨⟩
  exact hbare

/-- **A device can be shown like a socket.** Typed behind its scheme it is a device, and what is
shown of it is read as a socket. -/
theorem display_confused :
    parse "serial:localhost:80" = .ok (.serial "localhost:80") ∧
      (serial "localhost:80").display = "localhost:80" ∧
      parse (serial "localhost:80").display = .ok (.tcp "localhost:80") := by
  refine ⟨by decide, rfl, by decide⟩

end Address

end ProbeLink
