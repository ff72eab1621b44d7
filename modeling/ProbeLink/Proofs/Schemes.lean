/-
# A text is an address by its scheme and its form

What stands between the blanks at the ends of a text decides, and that is one text only
(`Text.trim_eq_iff`). It is refused if it is empty, or if it says `tcp:` in front of something that
is no host and port (`Address.Refused`). It names a socket if it is a host and a port, behind the
scheme or bare, unless it starts with a slash (`Address.NamesSocket`). In every other case it names
a device, also if it was meant to be a socket: without the scheme nothing is refused
(`Address.parse_by_form`).

Key definitions: `Text.Trimmed`, `Address.Refused`, `Address.NamesSocket`, `Address.pathOf`.
Key theorems: `Text.trim_eq_iff`, `Address.ofTrimmed_eq_error_iff`, `Address.parse_by_form`.
-/
import ProbeLink.Proofs.Addresses

namespace ProbeLink

namespace Text

variable {cs t : List Char}

/-- One text is another without the blanks at its ends. -/
structure Trimmed (cs t : List Char) : Prop where
  covers : ∃ lead trail, AllBlank lead ∧ AllBlank trail ∧ cs = lead ++ t ++ trail
  head : ∀ c ∈ t.head?, isBlank c = false
  last : ∀ c ∈ t.getLast?, isBlank c = false

/-- Trimming takes nothing but blanks off. -/
theorem exists_trim_append (cs : List Char) :
    ∃ lead trail, AllBlank lead ∧ AllBlank trail ∧ cs = lead ++ trim cs ++ trail := by
  have hfront := List.takeWhile_append_dropWhile (p := isBlank) (l := cs)
  have hback := List.takeWhile_append_dropWhile (p := isBlank) (l := (trimStart cs).reverse)
  refine ⟨cs.takeWhile isBlank, ((trimStart cs).reverse.takeWhile isBlank).reverse, ?_, ?_, ?_⟩
  · exact fun c hc => List.mem_takeWhile_imp hc
  · exact fun c hc => List.mem_takeWhile_imp (List.mem_reverse.mp hc)
  · rw [trim, trimEnd, List.append_assoc, ← List.reverse_append, hback, List.reverse_reverse]
    exact hfront.symm

/-- **Trimming** gives the one text that is left when the blanks at the ends are gone. -/
theorem trim_eq_iff : trim cs = t ↔ Trimmed cs t := by
  constructor
  · rintro rfl
    exact ⟨exists_trim_append cs, (trim_ends cs).1, (trim_ends cs).2⟩
  · rintro ⟨⟨lead, trail, hlead, htrail, rfl⟩, hhead, hlast⟩
    exact trim_append hlead htrail hhead hlast

end Text

namespace Address

variable {cs : List Char} {e : AddressError}

/-! ### What is refused -/

/-- Why a text without blanks at its ends is no address. -/
inductive Refused : List Char → AddressError → Prop where
  | empty : Refused [] .empty
  | notHostPort {rest : List Char} (socket : ¬IsHostPort rest) :
      Refused (tcpScheme ++ rest) (.notHostPort (String.ofList (tcpScheme ++ rest)))

/-- **A text is refused by its form.** -/
theorem ofTrimmed_eq_error_iff : ofTrimmed cs = .error e ↔ Refused cs e := by
  constructor
  · intro h
    unfold ofTrimmed at h
    split at h
    · rename_i hnil
      cases h
      rw [hnil]
      exact .empty
    · split at h
      · rename_i rest htcp
        split at h
        · cases h
        · rename_i hsocket
          cases h
          rw [eq_append_of_behind? htcp]
          exact .notHostPort (isHostPort_iff.not.mp hsocket)
      -- without the scheme of sockets there is always an address
      · split at h
        · cases h
        · split at h <;> cases h
  · intro h
    cases h with
    | empty => rfl
    | @notHostPort rest socket =>
      have hsome : tcpScheme ++ rest ≠ [] := List.cons_ne_nil _ _
      have htcp : behind? ['t', 'c', 'p', ':'] (tcpScheme ++ rest) = some rest :=
        behind?_append tcpScheme rest
      simp only [ofTrimmed, hsome, htcp, if_false, if_neg (isHostPort_iff.not.mpr socket)]

theorem exists_refused_iff :
    (∃ e, Refused cs e) ↔ cs = [] ∨ ∃ rest, cs = tcpScheme ++ rest ∧ ¬IsHostPort rest := by
  constructor
  · rintro ⟨_, _ | socket⟩
    · exact .inl rfl
    · exact .inr ⟨_, rfl, socket⟩
  · rintro (rfl | ⟨rest, rfl, socket⟩)
    · exact ⟨_, .empty⟩
    · exact ⟨_, .notHostPort socket⟩

/-! ### What is a socket and what is a device -/

/-- A text without blanks at its ends names a socket: a host and a port behind the scheme of
sockets, or bare, with no scheme at all and no slash in front. -/
def NamesSocket (cs hostPort : List Char) : Prop :=
  IsHostPort hostPort ∧
    (cs = tcpScheme ++ hostPort ∨ cs = hostPort ∧ Unschemed cs ∧ cs.head? ≠ some '/')

/-- The text without the scheme of devices in front. -/
def pathOf (cs : List Char) : List Char :=
  if serialScheme <+: cs then cs.drop serialScheme.length else cs

theorem reads_tcp_iff {hostPort : String} :
    Reads cs (.tcp hostPort) ↔ NamesSocket cs hostPort.toList := by
  constructor
  · rintro (socket | _ | ⟨unschemed, relative, socket⟩ | _)
    · rw [String.toList_ofList]
      exact ⟨socket, .inl rfl⟩
    · rw [String.toList_ofList]
      exact ⟨socket, .inr ⟨rfl, unschemed, relative⟩⟩
  · rintro ⟨socket, rfl | ⟨rfl, unschemed, relative⟩⟩
    · have hread := Reads.tcp socket
      rwa [String.ofList_toList] at hread
    · have hread := Reads.socket unschemed relative socket
      rwa [String.ofList_toList] at hread

theorem toList_of_reads_serial {path : String} (h : Reads cs (.serial path)) :
    path.toList = pathOf cs := by
  cases h with
  | serial =>
    rw [pathOf, if_pos (List.prefix_append _ _), List.drop_left, String.toList_ofList]
  | path unschemed => rw [pathOf, if_neg unschemed.2, String.toList_ofList]

/-- **What a text names is told by its form.** One text is left when the blanks at its ends are
gone. It is refused if it is empty, and if it is the scheme of sockets with something behind it
that is no host and port. It names a socket just if it is a host and a port behind the scheme, or
bare with no scheme and no slash in front. In every other case it names the device whose path is
left without the scheme of devices. -/
theorem parse_by_form (text : String) :
    ∃ cs, Text.Trimmed text.toList cs ∧ (∀ cs', Text.Trimmed text.toList cs' → cs' = cs) ∧
      (∀ e, parse text = .error e ↔ Refused cs e) ∧
      ((∃ e, parse text = .error e) ↔
        cs = [] ∨ ∃ rest, cs = tcpScheme ++ rest ∧ ¬IsHostPort rest) ∧
      (∀ hostPort, parse text = .ok (.tcp hostPort) ↔ NamesSocket cs hostPort.toList) ∧
      (∀ path, parse text = .ok (.serial path) ↔ path.toList = pathOf cs ∧
        (∀ e, ¬Refused cs e) ∧ ∀ hostPort, ¬NamesSocket cs hostPort) := by
  have herror : ∀ e, parse text = .error e ↔ Refused (Text.trim text.toList) e :=
    fun e => ofTrimmed_eq_error_iff
  have htcp : ∀ hostPort, parse text = .ok (.tcp hostPort) ↔
      NamesSocket (Text.trim text.toList) hostPort.toList :=
    fun hostPort => ofTrimmed_eq_ok_iff.trans reads_tcp_iff
  have hserial : ∀ path, parse text = .ok (.serial path) →
      path.toList = pathOf (Text.trim text.toList) :=
    fun path h => toList_of_reads_serial (ofTrimmed_eq_ok_iff.mp h)
  refine ⟨Text.trim text.toList, Text.trim_eq_iff.mp rfl, fun cs' h => ?_, herror, ?_, htcp,
    fun path => ⟨fun h => ⟨hserial path h, fun e he => ?_, fun hostPort hsocket => ?_⟩, ?_⟩⟩
  · exact (Text.trim_eq_iff.mpr h).symm
  · rw [← exists_refused_iff]
    exact exists_congr herror
  · cases h.symm.trans ((herror e).mpr he)
  · have hparse := (htcp (String.ofList hostPort)).mpr (by rwa [String.toList_ofList])
    cases h.symm.trans hparse
  · rintro ⟨hlist, hrefused, hsocket⟩
    cases hparse : parse text with
    | error e => exact absurd ((herror e).mp hparse) (hrefused e)
    | ok a =>
      cases a with
      | tcp hostPort => exact absurd ((htcp hostPort).mp hparse) (hsocket _)
      | serial path' => rw [String.toList_inj.mp (hlist.trans (hserial path' hparse).symm)]

-- the last colon counts, and a port that is too large makes a path
example : parse " ::1:+0080\n" = .ok (.tcp "::1:+0080") := by decide
example : parse "localhost:65536" = .ok (.serial "localhost:65536") := by decide

end Address

end ProbeLink
