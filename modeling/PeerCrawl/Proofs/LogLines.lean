import PeerCrawl.Crawl.Notice
import PeerCrawl.Proofs.AddressTexts

set_option autoImplicit false

/-! # Addresses on lines of the log

How a message starts tells where its addresses stand: behind one of a few fronts, at its end, or in
front. `CrawlNotice.named` looks there and keeps the words that have a colon inside. What it finds
are the texts of the addresses that the notice is about, and no other word
(`CrawlNotice.named_message`): peers' own words and errors stand behind the addresses, and where the
name of a command stands in front, the address is the last word. So notices with the same line are
about the same endpoints (`Address.text_identifies_endpoint`). -/

namespace PeerCrawl

/-! ## What notices are about -/

/-- The addresses of a notice, in the order in which its line names them. -/
def ConnectionNotice.addresses : ConnectionNotice → List Address
  | connected peer | versionQueued peer | spuriousWritable peer | verackReceived peer => [peer]
  | versionReceived handshake => [handshake.address]
  | addressReceived address peer => [address, peer]
  | ignored _ peer => [peer]

/-- The address of a report. -/
def Report.address : Report → Address
  | newAddress a => a
  | handshake h => h.address

/-- The addresses of a notice, in the order in which its line names them. -/
def CrawlNotice.addresses : CrawlNotice → List Address
  | connection notice => notice.addresses
  | duplicateAddress address | dialFailed address _ | dialing address _
  | registrationFailed address _ => [address]
  | interestFailed peer _ | deregistrationFailed peer _ | gossiped peer _ _ | peerClosed peer
  | dropped peer _ => [peer]
  | reported report => [report.address]
  | crawlStarted .. | crawlStopped .. | status .. | evicting .. | staleReadiness ..
  | reportsDropped .. | seedFailed .. | seedResolved .. | seeded .. => []

namespace CrawlNotice

/-! ## Reading messages -/

/-- The first word of a text, without a colon behind it. -/
def firstWord (cs : List Char) : List Char :=
  let word := cs.takeWhile (· ≠ ' ')
  if word.getLast? = some ':' then word.dropLast else word

/-- The last word of a text. -/
def lastWord (cs : List Char) : List Char := (cs.reverse.takeWhile (· ≠ ' ')).reverse

/-- What follows a front. -/
def after? (front : String) (cs : List Char) : Option (List Char) := front.toList.isPrefixOf? cs

/-- What stands in front of an address that is alone on its line. -/
def fronts : List String :=
  ["Connected to ", "Queued version for ", "Spurious writable notification for ",
    "Received version from ", "Received verack from ", "Duplicate address ",
    "Failed to connect to ", "Dialing ", "Failed to register ", "Failed to update interest of ",
    "Failed to deregister ", "Peer ", "Dropping ", "New address: ", "Handshake: "]

/-- The words at the places where a message that starts like this one has its addresses. -/
def placed (cs : List Char) : List (List Char) :=
  match after? "Got address " cs with
  | some rest => [firstWord rest, lastWord rest]
  | none =>
    match after? "Ignoring " cs with
    | some rest => [lastWord rest]
    | none => [firstWord ((fronts.findSome? (after? · cs)).getD cs)]

/-- The texts of addresses that a message names. -/
def named (message : String) : List (List Char) :=
  (placed message.toList).filter (':' ∈ ·)

/-! ## Words -/

/-- The first word of a text that starts with an address. -/
theorem firstWord_chars (a : Address) {rest : List Char}
    (h : rest.takeWhile (· ≠ ' ') = [] ∨ rest.takeWhile (· ≠ ' ') = [':']) :
    firstWord (a.chars ++ rest) = a.chars := by
  have hspace : ∀ c ∈ a.chars, decide (c ≠ ' ') = true := by simpa using a.ne_space_of_mem
  rw [firstWord, List.takeWhile_append_of_pos hspace]
  rcases h with h | h
  · rw [h, List.append_nil]
    exact if_neg a.getLast?_chars
  · rw [h, if_pos (by simp), List.dropLast_concat]

/-- The last word of a text that ends with a word behind a space. -/
theorem lastWord_append {front word : List Char} (hfront : front.getLast? = some ' ')
    (hword : ∀ c ∈ word, c ≠ ' ') : lastWord (front ++ word) = word := by
  obtain ⟨front, rfl⟩ := List.getLast?_eq_some_iff.1 hfront
  have hspace : ∀ c ∈ word.reverse, decide (c ≠ ' ') = true := by simpa using hword
  rw [lastWord, List.reverse_append, List.takeWhile_append_of_pos hspace]
  simp

/-- A word without a colon has none when it is read. -/
theorem colon_not_mem_firstWord {cs : List Char} (h : ':' ∉ cs.takeWhile (· ≠ ' ')) :
    ':' ∉ firstWord cs := by
  rw [firstWord]
  split
  · exact fun hmem => h (List.dropLast_subset _ hmem)
  · exact h

theorem toList_number (n : Nat) : (toString n).toList = Nat.toDigits 10 n := by
  rw [Nat.toString_eq_repr, Nat.toList_repr]

theorem isLowerDigit_of_mem_toDigits {n : Nat} :
    ∀ c ∈ Nat.toDigits 10 n, Text.IsLowerDigit c := by
  intro c hc
  have hdigit := Nat.isDigit_of_mem_toDigits (by decide) (by decide) hc
  rw [Char.isDigit, Bool.and_eq_true, decide_eq_true_eq, decide_eq_true_eq] at hdigit
  exact .inl hdigit

/-! ## Places of addresses -/

/-- What may follow an address that is not the last word. -/
def Follows (rest : String) : Prop :=
  rest.toList.takeWhile (· ≠ ' ') = [] ∨ rest.toList.takeWhile (· ≠ ' ') = [':']

theorem follows_nil : Follows "" := .inl rfl

theorem follows_append {start : String} (h : Follows start) (hspace : ' ' ∈ start.toList)
    (rest : String) : Follows (start ++ rest) := by
  rw [Follows, String.toList_append, List.takeWhile_append, if_neg]
  · exact h
  · intro hlength
    have hall := List.takeWhile_prefix (· ≠ ' ') |>.eq_of_length hlength
    have := List.takeWhile_eq_self_iff.1 hall ' ' hspace
    simp at this

theorem named_of_placed {message : String} (as : List Address)
    (h : placed message.toList = as.map Address.chars) : named message = as.map Address.chars := by
  rw [named, h, List.filter_eq_self]
  intro w hw
  obtain ⟨a, -, rfl⟩ := List.mem_map.1 hw
  simpa using a.colon_mem

/-- A message with one address, behind a front. -/
theorem named_front (front : String) {rest message : String} {a : Address}
    (hfront : ∀ cs, placed (front.toList ++ cs) = [firstWord cs]) (hrest : Follows rest)
    (hmessage : message = front ++ a.text ++ rest) : named message = [a.chars] := by
  refine named_of_placed [a] ?_
  rw [hmessage, String.append_assoc, String.toList_append, String.toList_append, hfront,
    Address.toList_text, firstWord_chars a hrest]
  rfl

/-- A message that ends with its address. -/
theorem named_end (front : String) {message : String} {a : Address}
    (hfront : ∀ cs, placed (front.toList ++ cs) = [firstWord cs])
    (hmessage : message = front ++ a.text) : named message = [a.chars] :=
  named_front front hfront follows_nil (hmessage.trans String.append_empty.symm)

/-- A message that tells of an error behind its address. -/
theorem named_error (front : String) {error message : String} {a : Address}
    (hfront : ∀ cs, placed (front.toList ++ cs) = [firstWord cs])
    (hmessage : message = front ++ a.text ++ ": " ++ error) : named message = [a.chars] :=
  named_front front hfront (follows_append (.inr rfl) (by decide) error)
    (hmessage.trans (String.append_assoc ..))

/-- A message without addresses. -/
theorem named_eq_nil (front : String) {rest message : String}
    (hfront : ∀ cs, (placed (front.toList ++ cs)).filter (':' ∈ ·) = [])
    (hmessage : message = front ++ rest) : named message = [] := by
  rw [named, hmessage, String.toList_append, hfront]

theorem starts_unlike_address : ∀ front ∈ "Got address " :: "Ignoring " :: fronts,
    (front.toList.head?.any fun c => ¬ Address.IsAddressStart c) = true := by decide

theorem after?_eq_none {front : String} {c : Char} {rest : List Char}
    (hfront : front ∈ "Got address " :: "Ignoring " :: fronts) (hc : Address.IsAddressStart c) :
    after? front (c :: rest) = none := by
  have hstart := starts_unlike_address front hfront
  rw [after?]
  cases hchars : front.toList with
  | nil => simp [hchars] at hstart
  | cons d ds =>
    have hne : d ≠ c := by
      rintro rfl
      simp [hchars, hc] at hstart
    simp [List.isPrefixOf?, hne]

/-- A message that starts as an address does has no front. -/
theorem placed_start {c : Char} {rest : List Char} (hc : Address.IsAddressStart c) :
    placed (c :: rest) = [firstWord (c :: rest)] := by
  have hfronts : fronts.findSome? (after? · (c :: rest)) = none := by
    rw [List.findSome?_eq_none_iff]
    intro front hfront
    exact after?_eq_none (by simp [hfront]) hc
  rw [placed, after?_eq_none (by simp) hc, after?_eq_none (by simp) hc, hfronts]
  rfl

/-- A message that starts with an address. -/
theorem named_start {rest message : String} {a : Address} (hrest : Follows rest)
    (hmessage : message = a.text ++ rest) : named message = [a.chars] := by
  refine named_of_placed [a] ?_
  obtain ⟨c, cs, hchars, hc⟩ := a.exists_start
  rw [hmessage, String.toList_append, Address.toList_text, hchars, List.cons_append,
    placed_start hc, ← List.cons_append, ← hchars, firstWord_chars a hrest]
  rfl

/-- A message that starts with a number. -/
theorem named_number {n : Nat} {rest message : String}
    (hrest : rest.toList.takeWhile (· ≠ ' ') = []) (hmessage : message = toString n ++ rest) :
    named message = [] := by
  have hdigits := isLowerDigit_of_mem_toDigits (n := n)
  obtain ⟨c, cs, hchars⟩ := List.exists_cons_of_ne_nil (Nat.toDigits_ne_nil (n := n) (b := 10))
  have hc : Address.IsAddressStart c := .inr (hdigits c (hchars ▸ List.mem_cons_self))
  have hspace : ∀ c ∈ Nat.toDigits 10 n, decide (c ≠ ' ') = true := by
    intro c hc
    rw [decide_eq_true_eq]
    rintro rfl
    exact absurd (hdigits _ hc) (by decide)
  have hcolon : ':' ∉ firstWord (Nat.toDigits 10 n ++ rest.toList) := by
    apply colon_not_mem_firstWord
    rw [List.takeWhile_append_of_pos hspace, hrest, List.append_nil]
    exact fun hmem => absurd (hdigits _ hmem) (by decide)
  rw [hchars, List.cons_append] at hcolon
  rw [named, hmessage, String.toList_append, toList_number, hchars, List.cons_append,
    placed_start hc]
  simp [hcolon]

/-! ## Messages -/

theorem text_handshake (h : Handshake) :
    ∃ rest, Follows rest ∧ h.text = h.address.text ++ rest := by
  have htext : h.text = h.address.text ++ " ([peer] agent: " ++ Text.quote h.userAgent ++
      ", services: " ++ h.services.text ++ ", version: " ++ toString h.version.toNat ++
      ", height: " ++ toString h.startHeight.toNat ++ ")" := rfl
  simp only [String.append_assoc] at htext
  exact ⟨_, follows_append (.inl rfl) (by decide) _, htext⟩

/-- A message that ends with a handshake. -/
theorem named_handshake (front : String) {message : String} {h : Handshake}
    (hfront : ∀ cs, placed (front.toList ++ cs) = [firstWord cs])
    (hmessage : message = front ++ h.text) : named message = [h.address.chars] := by
  obtain ⟨rest, hrest, htext⟩ := text_handshake h
  rw [htext, ← String.append_assoc] at hmessage
  exact named_front front hfront hrest hmessage

theorem chars_tag (tag : Tag) : ∀ c ∈ tag.text.toList, c ≠ ' ' ∧ c ≠ ':' := by
  have htext : tag.text = "Tag(" ++ toString tag.number ++ ")" := rfl
  intro c hc
  rw [htext, String.toList_append, String.toList_append, toList_number, List.mem_append,
    List.mem_append] at hc
  have hnumber : c ∈ Nat.toDigits 10 tag.number → c ≠ ' ' ∧ c ≠ ':' := by
    intro hc
    have hlower := isLowerDigit_of_mem_toDigits c hc
    constructor <;> rintro rfl <;> exact absurd hlower (by decide)
  have hfront : ∀ c ∈ "Tag(".toList, c ≠ ' ' ∧ c ≠ ':' := by simp
  have hback : ∀ c ∈ ")".toList, c ≠ ' ' ∧ c ≠ ':' := by simp
  rcases hc with (hc | hc) | hc
  · exact hfront c hc
  · exact hnumber hc
  · exact hback c hc

theorem named_report (r : Report) : named r.text = [r.address.chars] := by
  cases r with
  | newAddress a => exact named_end "New address: " (fun _ => rfl) rfl
  | handshake h => exact named_handshake "Handshake: " (fun _ => rfl) rfl

theorem named_connection (n : ConnectionNotice) :
    named n.message = n.addresses.map Address.chars := by
  cases n with
  | connected a => exact named_end "Connected to " (fun _ => rfl) rfl
  | versionQueued a => exact named_end "Queued version for " (fun _ => rfl) rfl
  | spuriousWritable a => exact named_end "Spurious writable notification for " (fun _ => rfl) rfl
  | versionReceived h => exact named_handshake "Received version from " (fun _ => rfl) rfl
  | verackReceived a => exact named_end "Received verack from " (fun _ => rfl) rfl
  | addressReceived a peer =>
    have hmessage : (ConnectionNotice.addressReceived a peer).message =
        "Got address " ++ a.text ++ " from " ++ peer.text := rfl
    have hlast : lastWord (a.chars ++ " from ".toList ++ peer.chars) = peer.chars :=
      lastWord_append (by simp) peer.ne_space_of_mem
    refine named_of_placed [a, peer] ?_
    calc placed (ConnectionNotice.addressReceived a peer).message.toList
        = placed ("Got address ".toList ++ (a.chars ++ (" from ".toList ++ peer.chars))) := by
          rw [hmessage]
          simp
      _ = [firstWord (a.chars ++ (" from ".toList ++ peer.chars)),
            lastWord (a.chars ++ (" from ".toList ++ peer.chars))] := rfl
      _ = [a.chars, peer.chars] := by
          rw [firstWord_chars a (.inl (by simp)), ← List.append_assoc, hlast]
  | ignored command peer =>
    have hmessage : (ConnectionNotice.ignored command peer).message =
        "Ignoring " ++ command.text ++ " message from " ++ peer.text := rfl
    have hlast : lastWord (command.text.toList ++ " message from ".toList ++ peer.chars) =
        peer.chars := lastWord_append (by simp) peer.ne_space_of_mem
    refine named_of_placed [peer] ?_
    calc placed (ConnectionNotice.ignored command peer).message.toList
        = placed ("Ignoring ".toList ++
            (command.text.toList ++ " message from ".toList ++ peer.chars)) := by
          rw [hmessage]
          simp
      _ = [lastWord (command.text.toList ++ " message from ".toList ++ peer.chars)] := rfl
      _ = [peer.chars] := by rw [hlast]

theorem named_message (n : CrawlNotice) : named n.message = n.addresses.map Address.chars := by
  cases n with
  | connection notice => exact named_connection notice
  | duplicateAddress a => exact named_end "Duplicate address " (fun _ => rfl) rfl
  | crawlStarted n =>
    exact named_eq_nil "Starting crawl with up to " (fun _ => rfl) (String.append_assoc ..)
  | crawlStopped n m =>
    have hmessage : (crawlStopped n m).message = "Crawl stopped with " ++ toString n ++
        " connections open, " ++ toString m ++ " addresses seen" := rfl
    simp only [String.append_assoc] at hmessage
    exact named_eq_nil "Crawl stopped with " (fun _ => rfl) hmessage
  | status n m k =>
    have hmessage : (status n m k).message = toString n ++ " connections open, " ++ toString m ++
        " addresses queued, " ++ toString k ++ " seen" := rfl
    simp only [String.append_assoc] at hmessage
    exact named_number (by simp) hmessage
  | evicting tag =>
    exact named_eq_nil "Connection limit reached, evicting " (fun _ => rfl) rfl
  | dialFailed a e => exact named_error "Failed to connect to " (fun _ => rfl) rfl
  | dialing a tag =>
    exact named_front "Dialing " (fun _ => rfl) (follows_append (.inl rfl) (by decide) tag.text)
      (String.append_assoc ..)
  | registrationFailed a e => exact named_error "Failed to register " (fun _ => rfl) rfl
  | interestFailed a e => exact named_error "Failed to update interest of " (fun _ => rfl) rfl
  | deregistrationFailed a e => exact named_error "Failed to deregister " (fun _ => rfl) rfl
  | staleReadiness tag =>
    have hmessage : (staleReadiness tag).message =
        "Ignoring readiness for closed " ++ tag.text := rfl
    have hlast : lastWord ("readiness for closed ".toList ++ tag.text.toList) = tag.text.toList :=
      lastWord_append (by simp) fun c hc => (chars_tag tag c hc).1
    have hplaced : placed (staleReadiness tag).message.toList = [tag.text.toList] := by
      calc placed (staleReadiness tag).message.toList
          = placed ("Ignoring ".toList ++ ("readiness for closed ".toList ++ tag.text.toList)) := by
            rw [hmessage]
            simp
        _ = [lastWord ("readiness for closed ".toList ++ tag.text.toList)] := rfl
        _ = [tag.text.toList] := by rw [hlast]
    have hcolon : ':' ∉ tag.text.toList := fun hmem => (chars_tag tag _ hmem).2 rfl
    rw [named, hplaced]
    simp [hcolon, addresses]
  | gossiped a n m =>
    have hmessage : (gossiped a n m).message = a.text ++ " gossiped " ++ toString n ++
        " addresses, " ++ toString m ++ " new" := rfl
    simp only [String.append_assoc] at hmessage
    exact named_start (follows_append (.inl rfl) (by decide) _) hmessage
  | peerClosed a => exact named_front "Peer " (fun _ => rfl) (.inl rfl) rfl
  | dropped a e => exact named_error "Dropping " (fun _ => rfl) rfl
  | reported r => exact named_report r
  | reportsDropped n e =>
    have hmessage : (reportsDropped n e).message =
        "Dropped " ++ toString n ++ " reports: " ++ e.message := rfl
    simp only [String.append_assoc] at hmessage
    exact named_eq_nil "Dropped " (fun _ => rfl) hmessage
  | seedFailed host e =>
    have hmessage : (seedFailed host e).message =
        "Failed to resolve seed " ++ host ++ ": " ++ e.message := rfl
    simp only [String.append_assoc] at hmessage
    exact named_eq_nil "Failed to resolve seed " (fun _ => rfl) hmessage
  | seedResolved host n =>
    have hmessage : (seedResolved host n).message =
        "Seed " ++ host ++ " resolved to " ++ toString n ++ " addresses" := rfl
    simp only [String.append_assoc] at hmessage
    exact named_eq_nil "Seed " (fun _ => rfl) hmessage
  | seeded n m =>
    have hmessage : (seeded n m).message =
        "Seeded " ++ toString n ++ " addresses from " ++ toString m ++ " hosts" := rfl
    simp only [String.append_assoc] at hmessage
    exact named_eq_nil "Seeded " (fun _ => rfl) hmessage

/-! ## Lines -/

theorem ne_space_of_mem_name (level : LogLevel) : ' ' ∉ level.name.toList := by
  cases level <;> decide

/-- The message of a line stands behind its first space. -/
theorem message_of_line {n n' : CrawlNotice} (h : n.line = n'.line) : n.message = n'.message := by
  have hchars : ∀ n : CrawlNotice,
      n.line.toList = n.level.name.toList ++ ' ' :: n.message.toList := fun n => by simp [line]
  have hsplit := congrArg String.toList h
  rw [hchars, hchars] at hsplit
  have hmessage := (Ip.split_unique (ne_space_of_mem_name _) (ne_space_of_mem_name _) hsplit).2
  exact String.toList_inj.1 hmessage

end CrawlNotice

namespace Address

theorem text_inj {a b : Address} : a.text = b.text ↔ a.raw = b.raw ∧ a.port = b.port :=
  String.ofList_inj.trans chars_inj

theorem endpoints_eq_of_chars {as bs : List Address} (h : as.map chars = bs.map chars) :
    as.map (fun a => (a.raw, a.port)) = bs.map fun a => (a.raw, a.port) := by
  induction as generalizing bs with
  | nil => rw [List.map_eq_nil_iff.1 h.symm]
  | cons a as ih =>
    cases bs with
    | nil => cases h
    | cons b bs =>
      obtain ⟨ha, has⟩ := List.cons.inj h
      obtain ⟨hraw, hport⟩ := chars_inj.1 ha
      rw [List.map_cons, List.map_cons, ih has, hraw, hport]

/-- **The text of an address identifies its endpoint.**

* The text of a version 6 address is the canonical one: lower-case groups without leading zeros, of
  which the longest run of at least two zeros, the first of equally long ones, is left out.
* Two addresses have the same text just if they have the same bytes and the same port.
* So reports with the same text are about the same bytes and the same port, and lines of the log
  that are the same are, address by address, about the same bytes and the same ports. -/
theorem text_identifies_endpoint :
    (∀ o : Octets 16, Ip.Canonical (Ip.groups o.bytes) (Ip.v6 o).chars) ∧
    (∀ a b : Address, a.text = b.text ↔ a.raw = b.raw ∧ a.port = b.port) ∧
    (∀ r r' : Report, r.text = r'.text →
      r.address.raw = r'.address.raw ∧ r.address.port = r'.address.port) ∧
    ∀ n n' : CrawlNotice, n.line = n'.line →
      n.addresses.map (fun a => (a.raw, a.port)) = n'.addresses.map fun a => (a.raw, a.port) := by
  refine ⟨Ip.canonical_v6, fun a b => text_inj, fun r r' h => ?_, fun n n' h => ?_⟩
  · have hnamed : [r.address.chars] = [r'.address.chars] := by
      rw [← CrawlNotice.named_report, h, CrawlNotice.named_report]
    exact chars_inj.1 (List.cons.inj hnamed).1
  · apply endpoints_eq_of_chars
    rw [← CrawlNotice.named_message, CrawlNotice.message_of_line h, CrawlNotice.named_message]

/-- Reports leave out scope and time, but not the port. -/
theorem text_identifies_endpoint_link_local :
    let near : Octets 16 := ⟨[0xFE, 0x80, 0, 0, 0, 0, 0, 0, 0, 0, 0, 0, 0, 0, 0, 1], rfl⟩
    let a := ofEndpoint (.v6 near 8333 0 3)
    let b := (ofEndpoint (.v6 near 8333 0 4)).withTime 5
    let c := ofEndpoint (.v6 near 8334 0 3)
    (Report.newAddress a).text = (Report.newAddress b).text ∧ a.raw = b.raw ∧ a.port = b.port ∧
      ¬ (Report.newAddress a).text = (Report.newAddress c).text := by
  intro near a b c
  obtain ⟨-, htext, hreport, -⟩ := text_identifies_endpoint
  have hab : (Report.newAddress a).text = (Report.newAddress b).text :=
    congrArg ("New address: " ++ ·) ((htext a b).2 ⟨rfl, rfl⟩)
  obtain ⟨hraw, hport⟩ := hreport _ _ hab
  refine ⟨hab, hraw, hport, fun hac => ?_⟩
  exact absurd (hreport _ _ hac).2 (by decide)

end Address

end PeerCrawl
