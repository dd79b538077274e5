import PeerCrawl.Ip.Literal
import PeerCrawl.Proofs.Numerals
import Mathlib.Data.List.TakeWhile

set_option autoImplicit false

/-! # Texts of IP addresses

The canonical text of groups is a relation here (`Ip.Canonical`): lower-case numerals without
leading zeros with colons between them, where two colons stand for the longest run of at least two
zeros, the first of equally long ones. The text of a version 6 address is canonical
(`Ip.canonical_v6`).

What is left out can be put back. The numerals of a text are separated by its colons
(`Ip.Joined.unique`), two colons follow each other just where the zeros were
(`Ip.Joined.splitAtGap_append`), and how many these were follows from the number of groups. So lists
of groups that are equally long have different canonical texts (`Ip.Canonical.unique`), and no two
addresses of one version have the same text (`Ip.v4_chars_inj`, `Ip.v6_chars_inj`). -/

namespace PeerCrawl

namespace Ip

open Text

/-! ## Numerals with separators -/

/-- A text is split in one way at the first of its separators. -/
theorem split_unique {separator : Char} {front front' back back' : List Char}
    (h : separator ∉ front) (h' : separator ∉ front')
    (heq : front ++ separator :: back = front' ++ separator :: back') :
    front = front' ∧ back = back' := by
  induction front generalizing front' with
  | nil =>
    cases front' with
    | nil => exact ⟨rfl, (List.cons.inj heq).2⟩
    | cons c rest' => exact absurd (List.cons.inj heq).1 (by grind)
  | cons c rest ih =>
    cases front' with
    | nil => exact absurd (List.cons.inj heq).1 (by grind)
    | cons c' rest' =>
      obtain ⟨rfl, hrest⟩ := List.cons.inj heq
      rw [List.mem_cons, not_or] at h h'
      obtain ⟨rfl, hback⟩ := ih h.2 h'.2 hrest
      exact ⟨rfl, hback⟩

/-- Numerals of numbers, with separators between them. -/
inductive Joined (separator : Char) (base : Nat) : List Nat → List Char → Prop
  | none : Joined separator base [] []
  | one {n : Nat} {cs : List Char} (h : IsNumeral base n cs) : Joined separator base [n] cs
  | more {n m : Nat} {ns : List Nat} {cs rest : List Char} (h : IsNumeral base n cs)
      (hrest : Joined separator base (m :: ns) rest) :
      Joined separator base (n :: m :: ns) (cs ++ separator :: rest)

theorem joined_digits (separator : Char) {base : Nat} (hbase : 2 ≤ base) (hbase' : base ≤ 16)
    (ns : List Nat) :
    Joined separator base ns ([separator].intercalate (ns.map (digits base))) := by
  induction ns with
  | nil => exact .none
  | cons n rest ih =>
    have hn := isNumeral_digits hbase hbase' n
    cases rest with
    | nil => simpa using Joined.one hn
    | cons m rest =>
      have h := Joined.more hn ih
      simpa [List.intercalate_cons_cons] using h

section

variable {separator : Char} {base : Nat} {ns ns' : List Nat} {cs cs' : List Char}

theorem Joined.mem (h : Joined separator base ns cs) :
    ∀ c ∈ cs, c = separator ∨ IsLowerDigit c := by
  induction h with
  | none => simp
  | one h => exact fun c hc => .inr (h.lower c hc)
  | more h _ ih =>
    intro c hc
    rcases List.mem_append.1 hc with hc | hc
    · exact .inr (h.lower c hc)
    · rcases List.mem_cons.1 hc with hc | hc
      · exact .inl hc
      · exact ih c hc

/-- A text of at least one number starts with a digit. -/
theorem Joined.exists_cons {n : Nat} (h : Joined separator base (n :: ns) cs) :
    ∃ c rest, cs = c :: rest ∧ IsLowerDigit c := by
  have hhead : ∀ {m cs}, IsNumeral base m cs → ∃ c rest, cs = c :: rest ∧ IsLowerDigit c := by
    intro m cs h
    obtain ⟨c, rest, rfl⟩ := List.exists_cons_of_ne_nil h.ne_nil
    exact ⟨c, rest, rfl, h.lower c List.mem_cons_self⟩
  cases h with
  | one h => exact hhead h
  | more h hrest =>
    obtain ⟨c, rest, rfl, hc⟩ := hhead h
    exact ⟨c, _, rfl, hc⟩

theorem Joined.unique (hseparator : ¬ IsLowerDigit separator) (h : Joined separator base ns cs)
    (h' : Joined separator base ns' cs) : ns = ns' := by
  generalize hcs : cs = cs' at h'
  -- on one reading of the text; the other one is opened in every case
  induction h generalizing ns' cs' with
  | none =>
    cases h' with
    | none => rfl
    | one h' => exact absurd hcs.symm h'.ne_nil
    | more => simp at hcs
  | one h =>
    cases h' with
    | none => exact absurd hcs h.ne_nil
    | one h' =>
      subst hcs
      rw [h.unique h']
    | more h' =>
      subst hcs
      exact absurd (by simp) (h.not_mem hseparator)
  | more h _ ih =>
    cases h' with
    | none => simp at hcs
    | one h' =>
      subst hcs
      exact absurd (by simp) (h'.not_mem hseparator)
    | more h' hrest' =>
      obtain ⟨rfl, hrest⟩ := split_unique (h.not_mem hseparator) (h'.not_mem hseparator) hcs
      rw [h.unique h', ih _ hrest hrest']

end

/-! ## Runs of zeros -/

theorem drop_eq_zeroRun (gs : List Nat) (start : Nat) :
    gs.drop start = List.replicate (zeroRun gs start) 0 ++ gs.drop (start + zeroRun gs start) := by
  have hzeros : (gs.drop start).takeWhile (· = 0) = List.replicate (zeroRun gs start) 0 :=
    List.eq_replicate_of_mem fun b hb => by simpa using List.mem_takeWhile_imp hb
  have hsplit : (gs.drop start).takeWhile (· = 0) ++ (gs.drop start).dropWhile (· = 0) =
      gs.drop start := List.takeWhile_append_dropWhile
  have hrest : (gs.drop start).drop (zeroRun gs start) = (gs.drop start).dropWhile (· = 0) := by
    calc (gs.drop start).drop (zeroRun gs start)
        = ((gs.drop start).takeWhile (· = 0) ++ (gs.drop start).dropWhile (· = 0)).drop
            (zeroRun gs start) := by rw [hsplit]
      _ = (gs.drop start).dropWhile (· = 0) := List.drop_left
  rw [← List.drop_drop, hrest, ← hzeros, hsplit]

/-- The groups around the zeros that start at a place. -/
theorem eq_zeroRun (gs : List Nat) (start : Nat) :
    gs = gs.take start ++ List.replicate (zeroRun gs start) 0 ++
      gs.drop (start + zeroRun gs start) := by
  rw [List.append_assoc, ← drop_eq_zeroRun, List.take_append_drop]

theorem le_zeroRun {gs front back : List Nat} {n : Nat}
    (h : gs = front ++ List.replicate n 0 ++ back) : n ≤ zeroRun gs front.length := by
  have hdrop : gs.drop front.length = List.replicate n 0 ++ back := by
    rw [h, List.append_assoc, List.drop_left]
  rw [zeroRun, hdrop, List.takeWhile_append_of_pos (by simp)]
  simp

/-- A fold that keeps the first place of a greatest value. -/
theorem first_greatest (f : Nat → Nat) (m : Nat) :
    let best := (List.range m).foldl (fun best i => if f best < f i then i else best) 0
    best ≤ m ∧ ∀ i < m, f i ≤ f best ∧ (f i = f best → best ≤ i) := by
  induction m with
  | zero => simp
  | succ m ih =>
    rw [List.range_succ, List.foldl_append]
    simp only [List.foldl_cons, List.foldl_nil]
    generalize (List.range m).foldl (fun best i => if f best < f i then i else best) 0 = best at ih
    obtain ⟨hle, hbest⟩ := ih
    split
    · next hgreater =>
      refine ⟨by omega, fun i hi => ?_⟩
      rcases Nat.lt_succ_iff_lt_or_eq.1 hi with hi | rfl
      · have := (hbest i hi).1
        omega
      · exact ⟨Nat.le_refl _, fun _ => Nat.le_refl _⟩
    · next hkept =>
      refine ⟨by omega, fun i hi => ?_⟩
      rcases Nat.lt_succ_iff_lt_or_eq.1 hi with hi | rfl
      · exact hbest i hi
      · exact ⟨Nat.le_of_not_lt hkept, fun _ => hle⟩

/-- No zeros in a row are more than those of the longest run, and as many start no earlier. -/
theorem longestZeroRun_spec {gs front back : List Nat} {n : Nat}
    (h : gs = front ++ List.replicate n 0 ++ back) (hn : 0 < n) :
    n ≤ zeroRun gs (longestZeroRun gs) ∧
      (n = zeroRun gs (longestZeroRun gs) → longestZeroRun gs ≤ front.length) := by
  have hlength : front.length < gs.length := by
    rw [h]
    simp
    omega
  obtain ⟨hgreatest, hfirst⟩ := (first_greatest (zeroRun gs) gs.length).2 front.length hlength
  have hrun := le_zeroRun h
  refine ⟨Nat.le_trans hrun hgreatest, fun heq => hfirst ?_⟩
  exact Nat.le_antisymm hgreatest (heq ▸ hrun)

/-! ## Canonical texts -/

/-- The canonical text of groups. -/
inductive Canonical (gs : List Nat) : List Char → Prop
  /-- All groups, when no two zeros follow each other. -/
  | whole {cs : List Char}
      (hruns : ∀ front n back, gs = front ++ List.replicate n 0 ++ back → n < 2)
      (hcs : Joined ':' 16 gs cs) : Canonical gs cs
  /-- Two colons for at least two zeros: as many as any in a row, and the first of these. -/
  | shortened {front back : List Nat} {n : Nat} {before after : List Char}
      (hgs : gs = front ++ List.replicate n 0 ++ back) (hn : 2 ≤ n)
      (hlongest : ∀ front' n' back', gs = front' ++ List.replicate n' 0 ++ back' →
        n' ≤ n ∧ (n' = n → front.length ≤ front'.length))
      (hbefore : Joined ':' 16 front before) (hafter : Joined ':' 16 back after) :
      Canonical gs (before ++ ':' :: ':' :: after)

theorem joined_colonSeparated (gs : List Nat) : Joined ':' 16 gs (colonSeparated gs) :=
  joined_digits ':' (by decide) (by decide) gs

theorem canonical_compressed (gs : List Nat) : Canonical gs (compressed gs) := by
  rw [compressed]
  split
  · next hshort =>
    refine .whole (fun front n back h => ?_) (joined_colonSeparated gs)
    by_contra hn
    have := (longestZeroRun_spec h (by omega)).1
    omega
  · next hlong =>
    rw [List.append_assoc]
    refine .shortened (eq_zeroRun gs (longestZeroRun gs)) (by omega) (fun front' n' back' h => ?_)
      (joined_colonSeparated _) (joined_colonSeparated _)
    rw [List.length_take]
    by_cases hn' : 0 < n'
    · obtain ⟨hle, hfirst⟩ := longestZeroRun_spec h hn'
      exact ⟨hle, fun heq => Nat.le_trans (Nat.min_le_left _ _) (hfirst heq)⟩
    · exact ⟨by omega, by omega⟩

theorem Canonical.mem {gs : List Nat} {cs : List Char} (h : Canonical gs cs) :
    ∀ c ∈ cs, c = ':' ∨ IsLowerDigit c := by
  cases h with
  | whole _ h => exact h.mem
  | shortened _ _ _ hbefore hafter =>
    intro c hc
    rcases List.mem_append.1 hc with hc | hc
    · exact hbefore.mem c hc
    · rw [List.mem_cons, List.mem_cons] at hc
      rcases hc with hc | hc | hc
      · exact .inl hc
      · exact .inl hc
      · exact hafter.mem c hc

/-! ## The two colons -/

theorem splitAtGap_append_of_not_mem {cs : List Char} (h : ':' ∉ cs) (rest : List Char) :
    splitAtGap (cs ++ rest) =
      (splitAtGap rest).map fun (before, after) => (cs ++ before, after) := by
  induction cs with
  | nil => simp
  | cons c cs ih =>
    rw [List.mem_cons, not_or] at h
    rw [List.cons_append, splitAtGap, ih h.2]
    · simp [Function.comp_def]
    · grind

theorem splitAtGap_single {c : Char} (hc : c ≠ ':') (rest : List Char) :
    splitAtGap (':' :: c :: rest) =
      (splitAtGap (c :: rest)).map fun (before, after) => (':' :: before, after) := by
  rw [splitAtGap]
  grind

theorem colon_not_lower : ¬ IsLowerDigit ':' := by decide

/-- The two colons of a text are not among groups in front of it. -/
theorem Joined.splitAtGap_append {base : Nat} {gs : List Nat} {cs : List Char}
    (h : Joined ':' base gs cs) (rest : List Char) :
    splitAtGap (cs ++ rest) =
      (splitAtGap rest).map fun (before, after) => (cs ++ before, after) := by
  induction h with
  | none => simp
  | one h => exact splitAtGap_append_of_not_mem (h.not_mem colon_not_lower) rest
  | @more n m ns cs ds h hrest ih =>
    obtain ⟨c, ds', rfl, hc⟩ := hrest.exists_cons
    have hne : c ≠ ':' := by
      rintro rfl
      exact colon_not_lower hc
    rw [List.append_assoc, splitAtGap_append_of_not_mem (h.not_mem colon_not_lower)]
    rw [List.cons_append] at ih
    rw [List.cons_append, List.cons_append, splitAtGap_single hne, ih]
    simp [Function.comp_def]

theorem Joined.splitAtGap_eq_none {base : Nat} {gs : List Nat} {cs : List Char}
    (h : Joined ':' base gs cs) : splitAtGap cs = Option.none := by
  simpa [splitAtGap] using h.splitAtGap_append []

theorem Joined.splitAtGap_eq_some {base : Nat} {gs : List Nat} {before : List Char}
    (h : Joined ':' base gs before) (after : List Char) :
    splitAtGap (before ++ ':' :: ':' :: after) = some (before, after) := by
  simpa [splitAtGap] using h.splitAtGap_append (':' :: ':' :: after)

/-- A canonical text is that of one list of its length. -/
theorem Canonical.unique {gs gs' : List Nat} {cs : List Char} (h : Canonical gs cs)
    (h' : Canonical gs' cs) (hlength : gs.length = gs'.length) : gs = gs' := by
  generalize hcs : cs = cs' at h'
  cases h with
  | whole _ h =>
    cases h' with
    | whole _ h' => exact h.unique colon_not_lower (hcs ▸ h')
    | shortened _ _ _ hbefore' =>
      have hnone := h.splitAtGap_eq_none
      rw [hcs, hbefore'.splitAtGap_eq_some] at hnone
      cases hnone
  | @shortened front back n before after hgs _ _ hbefore hafter =>
    cases h' with
    | whole _ h' =>
      have hnone := h'.splitAtGap_eq_none
      rw [← hcs, hbefore.splitAtGap_eq_some] at hnone
      cases hnone
    | @shortened _ _ n' _ _ hgs' _ _ hbefore' hafter' =>
      -- the parts are the same, and so is the number of zeros, which makes up the length
      have hsome := hbefore.splitAtGap_eq_some after
      rw [hcs, hbefore'.splitAtGap_eq_some, Option.some.injEq, Prod.mk.injEq] at hsome
      obtain ⟨rfl, rfl⟩ := hsome
      have hfront := hbefore.unique colon_not_lower hbefore'
      have hback := hafter.unique colon_not_lower hafter'
      subst hfront hback hgs hgs'
      simp only [List.length_append, List.length_replicate] at hlength
      have hn : n = n' := by omega
      rw [hn]

/-! ## Groups of bytes -/

theorem length_groups {n : Nat} {b : Bytes} (h : b.length = 2 * n) : (groups b).length = n := by
  induction n generalizing b with
  | zero => rw [List.length_eq_zero_iff.1 h]; rfl
  | succ n ih =>
    match b, h with
    | hi :: lo :: rest, h =>
      rw [groups, List.length_cons, ih (by simp at h; omega)]

theorem groups_inj {n : Nat} {b b' : Bytes} (h : b.length = 2 * n) (h' : b'.length = 2 * n)
    (heq : groups b = groups b') : b = b' := by
  induction n generalizing b b' with
  | zero => rw [List.length_eq_zero_iff.1 h, List.length_eq_zero_iff.1 h']
  | succ n ih =>
    match b, b', h, h' with
    | hi :: lo :: rest, hi' :: lo' :: rest', h, h' =>
      obtain ⟨hgroup, hrest⟩ := List.cons.inj heq
      have := lo.toNat_lt
      have := lo'.toNat_lt
      have hhi : hi = hi' := UInt8.toNat_inj.1 (by omega)
      have hlo : lo = lo' := UInt8.toNat_inj.1 (by omega)
      rw [hhi, hlo, ih (by simp at h; omega) (by simp at h'; omega) hrest]

/-! ## Addresses -/

theorem joined_dotted (octets : Bytes) :
    Joined '.' 10 (octets.map UInt8.toNat) (dotted octets) := by
  have h : dotted octets = ['.'].intercalate ((octets.map UInt8.toNat).map (digits 10)) := by
    rw [List.map_map]
    rfl
  rw [h]
  exact joined_digits '.' (by decide) (by decide) _

theorem v4_chars_inj {o o' : Octets 4} (h : (v4 o).chars = (v4 o').chars) : o = o' := by
  have h' : Joined '.' 10 (o'.bytes.map UInt8.toNat) (v4 o).chars := h ▸ joined_dotted o'.bytes
  have hnumbers := (joined_dotted o.bytes).unique (by decide) h'
  exact Octets.ext_bytes ((List.map_inj_right fun _ _ => UInt8.toNat_inj.1).1 hnumbers)

theorem canonical_v6 (o : Octets 16) : Canonical (groups o.bytes) (v6 o).chars :=
  canonical_compressed (groups o.bytes)

/-- Of two equally long runs of zeros, the first is left out. -/
example : (v6 ⟨[0x20, 0x01, 0x0D, 0xB8, 0, 0, 0, 0, 0, 1, 0, 0, 0, 0, 0, 1], rfl⟩).chars =
    "2001:db8::1:0:0:1".toList := by decide +kernel

theorem v6_chars_inj {o o' : Octets 16} (h : (v6 o).chars = (v6 o').chars) : o = o' := by
  have hlength := length_groups (n := 8) o.length_eq
  have hlength' := length_groups (n := 8) o'.length_eq
  have hgroups := (canonical_v6 o).unique (h ▸ canonical_v6 o') (hlength.trans hlength'.symm)
  exact Octets.ext_bytes (groups_inj (n := 8) o.length_eq o'.length_eq hgroups)

end Ip

end PeerCrawl
