import Mathlib.Data.List.TakeWhile
import PeerCrawl.UserAgent

set_option autoImplicit false

/-! # The grammar of user agents

A text writes a user agent if it is a name and a version, neither of which holds a colon, with a
slash in front, a colon between them and a slash at the end (`UserAgent.Writes`). The name ends at
the first colon, so a text is written in one way at most (`UserAgent.Writes.unique`). Reading a text
that is written so only asks whether a part is empty, and every other text has no valid format
(`UserAgent.ofText_grammar`). -/

namespace PeerCrawl

namespace UserAgent

variable {name version name' version' s : String}

/-- The text is a name and a version in the form of a user agent. -/
structure Writes (name version s : String) : Prop where
  text_eq : s = "/" ++ name ++ ":" ++ version ++ "/"
  name_colonFree : ':' ∉ name.toList
  version_colonFree : ':' ∉ version.toList

/-! ## Slashes and colons -/

theorem toList_text_ofParts (name version : String) : (ofParts name version).text.toList =
    '/' :: ((name.toList ++ ':' :: version.toList) ++ ['/']) := by
  simp only [ofParts, String.toList_append, List.append_assoc]
  rfl

theorem insideSlashes?_eq_some {cs parts : List Char} :
    insideSlashes? cs = some parts ↔ cs = '/' :: (parts ++ ['/']) := by
  constructor
  · intro h
    unfold insideSlashes? at h
    split at h
    · split at h
      · next hlast =>
        -- the slash at the end is not the one in front
        obtain ⟨inner, rfl⟩ := List.getLast?_eq_some_iff.1 hlast
        rw [List.dropLast_concat, Option.some.injEq] at h
        rw [h]
      · exact absurd h (by simp)
    · exact absurd h (by simp)
  · rintro rfl
    simp only [insideSlashes?, List.getLast?_concat, List.dropLast_concat, if_true]

theorem forall_ne_colon {cs : List Char} (h : ':' ∉ cs) : ∀ c ∈ cs, decide (c ≠ ':') = true :=
  fun _ hc => decide_eq_true fun heq => h (heq ▸ hc)

theorem takeWhile_colon {cs : List Char} (h : ':' ∉ cs) (rest : List Char) :
    (cs ++ ':' :: rest).takeWhile (· ≠ ':') = cs := by
  rw [List.takeWhile_append_of_pos (forall_ne_colon h), List.takeWhile_cons_of_neg (by simp),
    List.append_nil]

theorem dropWhile_colon {cs : List Char} (h : ':' ∉ cs) (rest : List Char) :
    (cs ++ ':' :: rest).dropWhile (· ≠ ':') = ':' :: rest := by
  rw [List.dropWhile_append_of_pos (forall_ne_colon h), List.dropWhile_cons_of_neg (by simp)]

/-! ## Parts -/

theorem checkParts_of_not_mem {cs : List Char} (h : ':' ∉ cs) :
    checkParts cs = .error .invalidFormat := by
  have hnone : cs.dropWhile (· ≠ ':') = [] := List.dropWhile_eq_nil_iff.2 (forall_ne_colon h)
  simp only [checkParts, hnone]

/-- The name ends at the first colon. -/
theorem checkParts_split {cs rest : List Char} (h : ':' ∉ cs) :
    checkParts (cs ++ ':' :: rest) =
      if ':' ∈ rest then .error .invalidFormat
      else if cs = [] then .error .missingName
      else if rest = [] then .error .missingVersion
      else .ok () := by
  simp only [checkParts, takeWhile_colon h, dropWhile_colon h]

/-! ## Texts -/

theorem Writes.toList_eq (h : Writes name version s) :
    s.toList = '/' :: ((name.toList ++ ':' :: version.toList) ++ ['/']) := by
  rw [h.text_eq]
  exact toList_text_ofParts name version

/-- A text is written in one way at most. -/
theorem Writes.unique (h : Writes name version s) (h' : Writes name' version' s) :
    name = name' ∧ version = version' := by
  have hlists := h.toList_eq.symm.trans h'.toList_eq
  have hparts := List.append_cancel_right (List.cons.inj hlists).2
  have hname := congrArg (List.takeWhile (· ≠ ':')) hparts
  rw [takeWhile_colon h.name_colonFree, takeWhile_colon h'.name_colonFree] at hname
  have hversion := congrArg (List.dropWhile (· ≠ ':')) hparts
  rw [dropWhile_colon h.name_colonFree, dropWhile_colon h'.name_colonFree] at hversion
  exact ⟨String.toList_inj.1 hname, String.toList_inj.1 (List.cons.inj hversion).2⟩

/-- Of a text that is written in the form, only the parts are looked at. -/
theorem ofText_of_writes (h : Writes name version s) :
    ofText s =
      if name = "" then .error .missingName
      else if version = "" then .error .missingVersion
      else .ok ⟨s⟩ := by
  simp only [ofText, insideSlashes?_eq_some.2 h.toList_eq, checkParts_split h.name_colonFree,
    if_neg h.version_colonFree, String.toList_eq_nil_iff]
  split
  · rfl
  · split <;> rfl

/-- A text that is written in no way has no valid format. -/
theorem ofText_of_not_writes (h : ∀ name version, ¬ Writes name version s) :
    ofText s = .error .invalidFormat := by
  unfold ofText
  split
  · rfl
  · next parts hparts =>
    by_cases hcolon : ':' ∈ parts
    · obtain ⟨cs, rest, rfl, hcs⟩ := List.eq_append_cons_of_mem hcolon
      rw [checkParts_split hcs]
      by_cases hrest : ':' ∈ rest
      · rw [if_pos hrest]
        rfl
      · -- without a second colon, the parts are a name and a version
        refine absurd ⟨?_, ?_, ?_⟩ (h (String.ofList cs) (String.ofList rest))
        · have hback := toList_text_ofParts (String.ofList cs) (String.ofList rest)
          rw [String.toList_ofList, String.toList_ofList] at hback
          exact String.toList_inj.1 ((insideSlashes?_eq_some.1 hparts).trans hback.symm)
        · rwa [String.toList_ofList]
        · rwa [String.toList_ofList]
    · rw [checkParts_of_not_mem hcolon]
      rfl

/-- A text, and what it reads as. -/
inductive Form (s : String) : Except UserAgentError UserAgent → Prop
  | complete (name version : String) (h : Writes name version s) (hname : name ≠ "")
      (hversion : version ≠ "") : Form s (.ok ⟨s⟩)
  | nameless (version : String) (h : Writes "" version s) : Form s (.error .missingName)
  | versionless (name : String) (h : Writes name "" s) (hname : name ≠ "") :
      Form s (.error .missingVersion)
  | formless (h : ∀ name version, ¬ Writes name version s) : Form s (.error .invalidFormat)

theorem form_ofText (s : String) : Form s (ofText s) := by
  by_cases hform : ∃ name version, Writes name version s
  · obtain ⟨name, version, h⟩ := hform
    rw [ofText_of_writes h]
    split
    · next hname => exact .nameless version (hname ▸ h)
    · next hname =>
      split
      · next hversion => exact .versionless name (hversion ▸ h) hname
      · next hversion => exact .complete name version h hname hversion
  · simp only [not_exists] at hform
    rw [ofText_of_not_writes hform]
    exact .formless hform

theorem ofText_eq_iff {result : Except UserAgentError UserAgent} :
    ofText s = result ↔ Form s result := by
  constructor
  · rintro rfl
    exact form_ofText s
  · intro h
    cases h with
    | complete name version h hname hversion =>
      rw [ofText_of_writes h, if_neg hname, if_neg hversion]
    | nameless version h => rw [ofText_of_writes h, if_pos rfl]
    | versionless name h hname => rw [ofText_of_writes h, if_neg hname, if_pos rfl]
    | formless h => exact ofText_of_not_writes h

theorem ofText_eq_ok {a : UserAgent} : ofText s = .ok a ↔
    a.text = s ∧ ∃ name version, name ≠ "" ∧ version ≠ "" ∧ Writes name version s := by
  rw [ofText_eq_iff]
  constructor
  · intro h
    cases h with
    | complete name version h hname hversion => exact ⟨rfl, name, version, hname, hversion, h⟩
  · rintro ⟨rfl, name, version, hname, hversion, h⟩
    exact .complete name version h hname hversion

theorem ofText_eq_missingName :
    ofText s = .error .missingName ↔ ∃ version, Writes "" version s := by
  rw [ofText_eq_iff]
  constructor
  · intro h
    cases h with
    | nameless version h => exact ⟨version, h⟩
  · rintro ⟨version, h⟩
    exact .nameless version h

theorem ofText_eq_missingVersion :
    ofText s = .error .missingVersion ↔ ∃ name, name ≠ "" ∧ Writes name "" s := by
  rw [ofText_eq_iff]
  constructor
  · intro h
    cases h with
    | versionless name h hname => exact ⟨name, hname, h⟩
  · rintro ⟨name, hname, h⟩
    exact .versionless name h hname

theorem ofText_eq_invalidFormat :
    ofText s = .error .invalidFormat ↔ ∀ name version, ¬ Writes name version s := by
  rw [ofText_eq_iff]
  constructor
  · intro h
    cases h with
    | formless h => exact h
  · exact .formless

/-! ## User agents of a name and a version -/

/-- If the text of two parts is written in some way, then these are the name and the version. -/
theorem Writes.ofParts (h : Writes name' version' (ofParts name version).text) :
    Writes name version (ofParts name version).text := by
  have hlists := (toList_text_ofParts name version).symm.trans h.toList_eq
  have hparts := List.append_cancel_right (List.cons.inj hlists).2
  -- there is one colon, which stands between the parts
  have hcount := congrArg (List.count ':') hparts
  simp only [List.count_append, List.count_cons_self,
    List.count_eq_zero.2 h.name_colonFree, List.count_eq_zero.2 h.version_colonFree] at hcount
  exact ⟨rfl, List.count_eq_zero.1 (by omega), List.count_eq_zero.1 (by omega)⟩

theorem exists_ofText_ofParts_iff : (∃ a, ofText (ofParts name version).text = .ok a) ↔
    name ≠ "" ∧ version ≠ "" ∧ ':' ∉ name.toList ∧ ':' ∉ version.toList := by
  constructor
  · rintro ⟨a, h⟩
    obtain ⟨-, name', version', hname, hversion, hwrites⟩ := ofText_eq_ok.1 h
    have hparts := hwrites.ofParts
    obtain ⟨rfl, rfl⟩ := hparts.unique hwrites
    exact ⟨hname, hversion, hparts.name_colonFree, hparts.version_colonFree⟩
  · rintro ⟨hname, hversion, hnameFree, hversionFree⟩
    exact ⟨_, ofText_eq_ok.2 ⟨rfl, name, version, hname, hversion, rfl, hnameFree, hversionFree⟩⟩

/-- **The grammar of user agents.** A text reads as a user agent just if it is a slash, a name, a
colon, a version and a slash, with a name and a version that are not empty and hold no colon; there
is only one way to see it so, and the user agent has that very text. A text of this form whose name
is empty, whatever its version is, is refused for want of a name; one that has a name and an empty
version, for want of a version; and every other text for its format. So the user agent of a name and
a version can be read just if both are not empty and hold no colon. -/
theorem ofText_grammar :
    (∀ s : String,
      (∀ a, ofText s = .ok a ↔ a.text = s ∧
        ∃ name version, name ≠ "" ∧ version ≠ "" ∧ Writes name version s) ∧
      (∀ name version name' version', Writes name version s → Writes name' version' s →
        name = name' ∧ version = version') ∧
      (ofText s = .error .missingName ↔ ∃ version, Writes "" version s) ∧
      (ofText s = .error .missingVersion ↔ ∃ name, name ≠ "" ∧ Writes name "" s) ∧
      (ofText s = .error .invalidFormat ↔ ∀ name version, ¬ Writes name version s)) ∧
    ∀ name version, (∃ a, ofText (ofParts name version).text = .ok a) ↔
      name ≠ "" ∧ version ≠ "" ∧ ':' ∉ name.toList ∧ ':' ∉ version.toList :=
  ⟨fun _ => ⟨fun _ => ofText_eq_ok, fun _ _ _ _ h h' => h.unique h', ofText_eq_missingName,
    ofText_eq_missingVersion, ofText_eq_invalidFormat⟩, fun _ _ => exists_ofText_ofParts_iff⟩

/-- Slashes may stand inside of the name and of the version. -/
theorem ofText_grammar_slashes :
    let name := "a/"
    let version := "/b"
    Writes name version "/a/:/b/" ∧ (∃ a, ofText "/a/:/b/" = .ok a ∧ a.text = "/a/:/b/") ∧
      ∀ name' version', Writes name' version' "/a/:/b/" → name = name' ∧ version = version' := by
  intro name version
  have hwrites : Writes name version "/a/:/b/" := ⟨by decide +kernel, by decide, by decide⟩
  obtain ⟨hok, hunique, -⟩ := ofText_grammar.1 "/a/:/b/"
  refine ⟨hwrites, ⟨⟨"/a/:/b/"⟩, ?_, rfl⟩, fun name' version' => hunique _ _ _ _ hwrites⟩
  exact (hok _).2 ⟨rfl, name, version, by decide, by decide, hwrites⟩

end UserAgent

end PeerCrawl
