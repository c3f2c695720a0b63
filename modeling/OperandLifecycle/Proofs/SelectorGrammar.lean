import OperandLifecycle.Cluster.Selector
/-!
# Well-formed selectors and how they are read

A well-formed selector joins requirements with commas. Each requirement is written in one of
the forms `key = value`, `key == value`, `key != value`, `key in (v₁,…,vₘ)`,
`key notin (v₁,…,vₘ)`, `key` and `!key`, with keys of the characters `[-A-Za-z0-9._/]`, values
of `[A-Za-z0-9._-]`, and blanks where a writer may put them: around the requirement, around
the operator, after `!`, between the words of a set, and around each option. `Written` is that
grammar, `PaddedRequirement.render` writes a requirement out and `selectorOf` joins them.

Reading such a selector gives back what was written. Splitting it at its commas outside
parentheses gives the requirements one by one (`splitRequirements_selectorOf`): only the
options of a set stand inside parentheses, and they hold the only other commas. Each requirement
is then read in the form it was written in, with its key, its values trimmed of their blanks and
its options split at their commas (`parse_render`): the set form fails on every other form, and
the equality form on the existence forms.
-/

namespace OperandLifecycle.Cluster

open Json

/-! ### Characters of keys and values -/

/-- A character that may stand in a value: a letter or digit of ASCII, `.`, `_` or `-`. -/
def isSelectorValueChar (c : Char) : Bool := c.isAlphanum || c == '.' || c == '_' || c == '-'

/-- A character that may stand in a key: a value character or `/`. -/
def isSelectorKeyChar (c : Char) : Bool := isSelectorValueChar c || c == '/'

theorem toNat_of_isAlphanum {c : Char} (h : c.isAlphanum = true) :
    (48 ≤ c.toNat ∧ c.toNat ≤ 57) ∨ (65 ≤ c.toNat ∧ c.toNat ≤ 90) ∨
      (97 ≤ c.toNat ∧ c.toNat ≤ 122) := by
  -- the three ranges of `Char.isAlphanum`, read off its definition
  have hr : (decide ('A'.val ≤ c.val ∧ c.val ≤ 'Z'.val) || ('a'.val ≤ c.val && c.val ≤ 'z'.val) ||
      ('0'.val ≤ c.val && c.val ≤ '9'.val)) = true := h
  simp only [Bool.or_eq_true, Bool.and_eq_true, decide_eq_true_eq, UInt32.le_iff_toNat_le] at hr
  simp only [Char.toNat]
  have hA : 'A'.val.toNat = 65 := rfl
  have hZ : 'Z'.val.toNat = 90 := rfl
  have ha : 'a'.val.toNat = 97 := rfl
  have hz : 'z'.val.toNat = 122 := rfl
  have h0 : '0'.val.toNat = 48 := rfl
  have h9 : '9'.val.toNat = 57 := rfl
  omega

theorem toNat_of_isSelectorKeyChar {c : Char} (h : isSelectorKeyChar c = true) :
    (48 ≤ c.toNat ∧ c.toNat ≤ 57) ∨ (65 ≤ c.toNat ∧ c.toNat ≤ 90) ∨
      (97 ≤ c.toNat ∧ c.toNat ≤ 122) ∨ c.toNat = 45 ∨ c.toNat = 46 ∨ c.toNat = 47 ∨
        c.toNat = 95 := by
  simp only [isSelectorKeyChar, isSelectorValueChar, Bool.or_eq_true, beq_iff_eq] at h
  rcases h with (((h | h) | h) | h) | h
  · have := toNat_of_isAlphanum h
    omega
  all_goals subst h; decide

/-- A key character is no blank. -/
theorem isSpace_of_selectorKeyChar {c : Char} (h : isSelectorKeyChar c = true) :
    Text.isSpace c = false := by
  have hn := toNat_of_isSelectorKeyChar h
  simp only [Text.isSpace, Bool.or_eq_false_iff, decide_eq_false_iff_not, beq_eq_false_iff_ne,
    ne_eq]
  omega

/-- A key character is none of the characters that are no key characters, such as those that
give a selector its shape. -/
theorem ne_of_selectorKeyChar {c d : Char} (h : isSelectorKeyChar c = true)
    (hd : isSelectorKeyChar d = false) : c ≠ d := by
  rintro rfl
  rw [h] at hd
  cases hd

theorem isSelectorKeyChar_of_value {c : Char} (h : isSelectorValueChar c = true) :
    isSelectorKeyChar c = true := by
  simp [isSelectorKeyChar, h]

theorem isKeyChar_of_selectorKeyChar {c : Char} (h : isSelectorKeyChar c = true) :
    isKeyChar c = true := by
  simp [isKeyChar, isSpace_of_selectorKeyChar h, ne_of_selectorKeyChar h (d := '!') (by decide),
    ne_of_selectorKeyChar h (d := '=') (by decide)]

/-! ### The grammar -/

/-- A key: a non-empty text of key characters. -/
structure SelectorKey where
  text : String
  nonempty : text.toList ≠ []
  valid : ∀ c ∈ text.toList, isSelectorKeyChar c = true

/-- A value: a text of value characters, possibly empty. -/
structure SelectorValue where
  text : String
  valid : ∀ c ∈ text.toList, isSelectorValueChar c = true

theorem SelectorValue.keyChar (v : SelectorValue) :
    ∀ c ∈ v.text.toList, isSelectorKeyChar c = true :=
  fun c hc => isSelectorKeyChar_of_value (v.valid c hc)

/-- `n` blanks. -/
def blanks (n : Nat) : List Char := List.replicate n ' '

/-- One option of a set, with the blanks written before and after it. -/
structure SetOption where
  before : Nat
  value : SelectorValue
  after : Nat

def SetOption.chars (o : SetOption) : List Char :=
  blanks o.before ++ o.value.text.toList ++ blanks o.after

/-- The operators of the equality form. -/
inductive Comparison
  | eq
  | eqEq
  | ne

def Comparison.chars : Comparison → List Char
  | .eq => ['=']
  | .eqEq => ['=', '=']
  | .ne => ['!', '=']

/-- A requirement as written, with the blanks inside it. A set has at least one blank after its
key and after its word, and at least one option. -/
inductive Written where
  | compare (key : SelectorKey) (op : Comparison) (value : SelectorValue) (before after : Nat)
  | set (key : SelectorKey) (isIn : Bool) (gap₁ gap₂ : Nat) (first : SetOption)
      (more : List SetOption)
  | present (key : SelectorKey)
  | absent (key : SelectorKey) (gap : Nat)

def setWord (isIn : Bool) : List Char := if isIn then ['i', 'n'] else ['n', 'o', 't', 'i', 'n']

def Written.chars : Written → List Char
  | .compare k op v b a => k.text.toList ++ blanks b ++ op.chars ++ blanks a ++ v.text.toList
  | .set k isIn g₁ g₂ o os =>
    k.text.toList ++ blanks (g₁ + 1) ++ setWord isIn ++ blanks (g₂ + 1) ++
      '(' :: [','].intercalate ((o :: os).map SetOption.chars) ++ [')']
  | .present k => k.text.toList
  | .absent k g => '!' :: blanks g ++ k.text.toList

/-- The key a requirement is about. -/
def Written.key : Written → SelectorKey
  | .compare k .. | .set k .. | .present k | .absent k _ => k

/-- A requirement with the blanks written around it. -/
structure PaddedRequirement where
  lead : Nat
  req : Written
  trail : Nat

def PaddedRequirement.chars (p : PaddedRequirement) : List Char :=
  blanks p.lead ++ p.req.chars ++ blanks p.trail

def PaddedRequirement.render (p : PaddedRequirement) : String := String.ofList p.chars

/-- The selector that joins requirements with commas. -/
def selectorOf (rs : List PaddedRequirement) : String :=
  String.intercalate "," (rs.map PaddedRequirement.render)

theorem blanks_isSpace (n : Nat) : ∀ c ∈ blanks n, Text.isSpace c = true := by
  intro c hc
  rw [blanks, List.mem_replicate] at hc
  rw [hc.2]
  decide

theorem key_subset_chars (r : Written) : r.key.text.toList ⊆ r.chars := by
  intro c hc
  cases r <;> simp [Written.key, Written.chars] at hc ⊢ <;> simp [hc]

/-- Every character of lists joined by a separator is in the separator or in one of them. -/
theorem forall_mem_intercalate {P : Char → Prop} {sep : List Char} (hsep : ∀ c ∈ sep, P c) :
    ∀ {xss : List (List Char)}, (∀ xs ∈ xss, ∀ c ∈ xs, P c) → ∀ c ∈ sep.intercalate xss, P c
  | [], _ => by simp
  | [xs], h => by simpa using h xs List.mem_cons_self
  | xs :: ys :: rest, h => by
    have hrest := @forall_mem_intercalate P sep hsep (ys :: rest)
      fun zs hz => h zs (List.mem_cons_of_mem _ hz)
    intro c hc
    rw [List.intercalate_cons_cons, List.mem_append, List.mem_append] at hc
    rcases hc with (hc | hc) | hc
    · exact h xs List.mem_cons_self c hc
    · exact hsep c hc
    · exact hrest c hc

/-- Every character among the options of a set is a comma, a blank or a value character. -/
theorem options_chars (o : SetOption) (os : List SetOption) :
    ∀ c ∈ [','].intercalate ((o :: os).map SetOption.chars),
      c = ',' ∨ c = ' ' ∨ isSelectorValueChar c = true := by
  -- the options are joined by commas, and each is a value between blanks
  have hopt : ∀ o' : SetOption, ∀ c ∈ o'.chars, c = ',' ∨ c = ' ' ∨ isSelectorValueChar c = true := by
    intro o' c hc
    simp only [SetOption.chars, List.mem_append, blanks, List.mem_replicate] at hc
    rcases hc with (hc | hc) | hc
    · exact .inr (.inl hc.2)
    · exact .inr (.inr (o'.value.valid c hc))
    · exact .inr (.inl hc.2)
  refine forall_mem_intercalate (by simp) fun xs hxs c hc => ?_
  obtain ⟨o', -, rfl⟩ := List.mem_map.1 hxs
  exact hopt o' c hc

/-! ### Splitting at the commas outside parentheses -/

theorem foldl_splitStep_plain (done : List String) (cur : List Char) (d : Int) {cs : List Char}
    (hcs : ∀ c ∈ cs, c ≠ '(' ∧ c ≠ ')') (hcomma : d = 0 → ',' ∉ cs) :
    cs.foldl splitStep (done, cur, d) = (done, cs.reverse ++ cur, d) := by
  induction cs generalizing cur with
  | nil => rfl
  | cons c cs ih =>
    have ⟨hl, hr⟩ := hcs c List.mem_cons_self
    have hc : (c == ',' && d == 0) = false := by
      by_cases hd : d = 0
      · have : c ≠ ',' := fun h => hcomma hd (h ▸ List.mem_cons_self)
        simp [this]
      · simp [hd]
    rw [List.foldl_cons, splitStep]
    simp only [hc, Bool.false_eq_true, if_false, hl, hr, beq_iff_eq]
    rw [ih (c :: cur) (fun x hx => hcs x (List.mem_cons_of_mem _ hx))
      (fun hd h => hcomma hd (List.mem_cons_of_mem _ h))]
    simp

/-- Text that splitting outside parentheses takes in whole: none of `(`, `)` and `,`. -/
def Plain (cs : List Char) : Prop := ∀ c ∈ cs, c ≠ '(' ∧ c ≠ ')' ∧ c ≠ ','

@[simp] theorem plain_append {cs ds : List Char} : Plain (cs ++ ds) ↔ Plain cs ∧ Plain ds := by
  simp only [Plain, List.mem_append]
  constructor
  · intro h
    exact ⟨fun c hc => h c (.inl hc), fun c hc => h c (.inr hc)⟩
  · rintro ⟨hc, hd⟩ c (h | h)
    · exact hc c h
    · exact hd c h

@[simp] theorem plain_cons {c : Char} {cs : List Char} :
    Plain (c :: cs) ↔ (c ≠ '(' ∧ c ≠ ')' ∧ c ≠ ',') ∧ Plain cs := by
  simp [Plain]

@[simp] theorem plain_nil : Plain [] := by simp [Plain]

@[simp] theorem plain_blanks (n : Nat) : Plain (blanks n) := by
  intro c h
  rw [blanks, List.mem_replicate] at h
  rw [h.2]
  decide

theorem plain_of_keyChars {cs : List Char} (h : ∀ c ∈ cs, isSelectorKeyChar c = true) :
    Plain cs := fun c hc =>
  ⟨ne_of_selectorKeyChar (h c hc) (by decide), ne_of_selectorKeyChar (h c hc) (by decide),
    ne_of_selectorKeyChar (h c hc) (by decide)⟩

theorem foldl_splitStep_of_plain (done : List String) (cur : List Char) {cs : List Char}
    (h : Plain cs) : cs.foldl splitStep (done, cur, 0) = (done, cs.reverse ++ cur, 0) :=
  foldl_splitStep_plain done cur 0 (fun c hc => ⟨(h c hc).1, (h c hc).2.1⟩)
    (fun _ hc => (h ',' hc).2.2 rfl)

/-- A requirement is taken in whole, whatever was read before it. -/
theorem foldl_splitStep_padded (done : List String) (cur : List Char) (p : PaddedRequirement) :
    p.chars.foldl splitStep (done, cur, 0) = (done, p.chars.reverse ++ cur, 0) := by
  obtain ⟨lead, r, trail⟩ := p
  cases r with
  | set k isIn g₁ g₂ o os =>
    -- only the options stand inside parentheses, where commas do not split
    have hA : Plain (blanks lead ++ k.text.toList ++ blanks (g₁ + 1) ++ setWord isIn ++
        blanks (g₂ + 1)) := by
      cases isIn <;> simp [setWord, plain_of_keyChars k.valid]
    have hinner : ∀ c ∈ [','].intercalate ((o :: os).map SetOption.chars),
        c ≠ '(' ∧ c ≠ ')' := by
      intro c hc
      rcases options_chars o os c hc with rfl | rfl | hv
      · decide
      · decide
      · exact ⟨ne_of_selectorKeyChar (isSelectorKeyChar_of_value hv) (by decide),
          ne_of_selectorKeyChar (isSelectorKeyChar_of_value hv) (by decide)⟩
    have hchars : (PaddedRequirement.mk lead (.set k isIn g₁ g₂ o os) trail).chars =
        (blanks lead ++ k.text.toList ++ blanks (g₁ + 1) ++ setWord isIn ++ blanks (g₂ + 1)) ++
          '(' :: ([','].intercalate ((o :: os).map SetOption.chars) ++ ')' :: blanks trail) := by
      simp [PaddedRequirement.chars, Written.chars]
    rw [hchars, List.foldl_append, foldl_splitStep_of_plain done cur hA, List.foldl_cons,
      splitStep]
    simp only [show ('(' == ',') = false from rfl, Bool.false_and, Bool.false_eq_true, if_false,
      show ('(' == '(') = true from rfl, if_true]
    rw [List.foldl_append, foldl_splitStep_plain done _ _ hinner (by simp), List.foldl_cons,
      splitStep]
    simp only [show (')' == ',') = false from rfl, Bool.false_and, Bool.false_eq_true, if_false,
      show (')' == '(') = false from rfl, show (')' == ')') = true from rfl, if_true]
    rw [show (0 : Int) + 1 - 1 = 0 from rfl, foldl_splitStep_of_plain done _ (plain_blanks trail)]
    simp
  | compare k op v b a =>
    refine foldl_splitStep_of_plain done cur ?_
    cases op <;> simp [PaddedRequirement.chars, Written.chars, Comparison.chars,
      plain_of_keyChars k.valid, plain_of_keyChars v.keyChar]
  | present k =>
    exact foldl_splitStep_of_plain done cur
      (by simp [PaddedRequirement.chars, Written.chars, plain_of_keyChars k.valid])
  | absent k g =>
    exact foldl_splitStep_of_plain done cur
      (by simp [PaddedRequirement.chars, Written.chars, plain_of_keyChars k.valid])

/-- Requirements joined by commas are taken in one after the other: all but the last are read,
and the last is the one being read. -/
theorem foldl_splitStep_joined (done : List String) (p : PaddedRequirement)
    (ps : List PaddedRequirement) :
    ([','].intercalate ((p :: ps).map PaddedRequirement.chars)).foldl splitStep (done, [], 0) =
      (((p :: ps).dropLast.map PaddedRequirement.render).reverse ++ done,
        ((p :: ps).getLast (List.cons_ne_nil _ _)).chars.reverse, 0) := by
  induction ps generalizing p done with
  | nil => simp [foldl_splitStep_padded]
  | cons q qs ih =>
    rw [List.map_cons, List.map_cons, List.intercalate_cons_cons, List.foldl_append,
      List.foldl_append, foldl_splitStep_padded, List.foldl_cons, List.foldl_nil, splitStep]
    simp only [show (',' == ',') = true from rfl, show ((0 : Int) == 0) = true from rfl,
      Bool.and_self, if_true, List.append_nil, List.reverse_reverse]
    rw [← List.map_cons, ih]
    simp [PaddedRequirement.render]

/-- A written requirement is never blank: its key is not. -/
theorem isBlankText_render (p : PaddedRequirement) : Text.isBlankText p.render = false := by
  obtain ⟨c, cs, hc⟩ := List.exists_cons_of_ne_nil p.req.key.nonempty
  have hkey : c ∈ p.req.key.text.toList := hc ▸ List.mem_cons_self
  have hmem : c ∈ p.render.toList := by
    simp only [PaddedRequirement.render, PaddedRequirement.chars, String.toList_ofList,
      List.mem_append]
    exact .inl (.inr (key_subset_chars p.req hkey))
  rw [Bool.eq_false_iff, ne_eq, Text.isBlankText_iff]
  intro hall
  have hspace := isSpace_of_selectorKeyChar (p.req.key.valid c hkey)
  rw [hall c hmem] at hspace
  cases hspace

/-- Splitting requirements joined by commas gives them back. -/
theorem splitRequirements_selectorOf (rs : List PaddedRequirement) :
    splitRequirements (selectorOf rs) = rs.map PaddedRequirement.render := by
  cases rs with
  | nil => rfl
  | cons p ps =>
    have hchars : (selectorOf (p :: ps)).toList =
        [','].intercalate ((p :: ps).map PaddedRequirement.chars) := by
      simp [selectorOf, PaddedRequirement.render, Function.comp_def]
    rw [splitRequirements, hchars, foldl_splitStep_joined]
    simp only [List.reverse_reverse, List.append_nil]
    have hlast : String.ofList ((p :: ps).getLast (List.cons_ne_nil _ _)).chars =
        ((p :: ps).getLast (List.cons_ne_nil _ _)).render := rfl
    rw [hlast, isBlankText_render]
    simp only [Bool.false_eq_true, if_false, List.reverse_cons, List.reverse_reverse]
    -- the last requirement joins the others at the end
    calc _ = ((p :: ps).dropLast ++ [(p :: ps).getLast (List.cons_ne_nil _ _)]).map
          PaddedRequirement.render := by simp
      _ = _ := by rw [List.dropLast_concat_getLast]

/-! ### Blanks, keys and trimming -/

theorem dropSpace_blanks_append (n : Nat) {cs : List Char}
    (h : ∀ c ∈ cs.head?, Text.isSpace c = false) : dropSpace (blanks n ++ cs) = cs := by
  rw [dropSpace, List.dropWhile_append_of_pos (blanks_isSpace n)]
  cases cs with
  | nil => rfl
  | cons c cs => exact List.dropWhile_cons_of_neg (by simp [h c rfl])

theorem dropSpace_blanks_cons (n : Nat) (c : Char) (cs : List Char) (hc : Text.isSpace c = false) :
    dropSpace (blanks n ++ c :: cs) = c :: cs :=
  dropSpace_blanks_append n fun _ hd => Option.some.inj hd ▸ hc

theorem dropSpace_eq_nil_of_blank {cs : List Char} (h : ∀ c ∈ cs, Text.isSpace c = true) :
    dropSpace cs = [] := by
  have := @List.dropWhile_append_of_pos _ Text.isSpace cs [] h
  simpa [dropSpace] using this

theorem dropSpace_lead_key (lead : Nat) (k : SelectorKey) (rest : List Char) :
    dropSpace (blanks lead ++ (k.text.toList ++ rest)) = k.text.toList ++ rest := by
  obtain ⟨c, cs, hc⟩ := List.exists_cons_of_ne_nil k.nonempty
  have hs := isSpace_of_selectorKeyChar (k.valid c (hc ▸ List.mem_cons_self))
  rw [hc, List.cons_append]
  exact dropSpace_blanks_cons lead c _ hs

theorem takeKey_append (k : SelectorKey) {rest : List Char}
    (h : ∀ c ∈ rest.head?, isKeyChar c = false) :
    takeKey (k.text.toList ++ rest) = some (k.text, rest) := by
  have hk : ∀ c ∈ k.text.toList, isKeyChar c = true :=
    fun c hc => isKeyChar_of_selectorKeyChar (k.valid c hc)
  have htake : rest.takeWhile isKeyChar = [] := by
    cases rest with
    | nil => rfl
    | cons c cs => exact List.takeWhile_cons_of_neg (by simp [h c rfl])
  have hdrop : rest.dropWhile isKeyChar = rest := by
    cases rest with
    | nil => rfl
    | cons c cs => exact List.dropWhile_cons_of_neg (by simp [h c rfl])
  obtain ⟨c, cs, hc⟩ := List.exists_cons_of_ne_nil k.nonempty
  rw [takeKey, List.takeWhile_append_of_pos hk, htake, List.append_nil,
    List.dropWhile_append_of_pos hk, hdrop]
  rw [hc]
  simp [← hc]

/-- A key followed by a blank is read whole. -/
theorem takeKey_key_space (k : SelectorKey) (n : Nat) (more : List Char) :
    takeKey (k.text.toList ++ (blanks (n + 1) ++ more)) = some (k.text, blanks (n + 1) ++ more) :=
  takeKey_append k fun c hc => by
    obtain rfl := Option.some.inj hc
    decide

/-- A key followed by blanks and then by no key character is read whole. -/
theorem takeKey_key_blanks (k : SelectorKey) (n : Nat) {more : List Char}
    (h : ∀ c ∈ more.head?, isKeyChar c = false) :
    takeKey (k.text.toList ++ (blanks n ++ more)) = some (k.text, blanks n ++ more) := by
  cases n with
  | zero => exact takeKey_append k h
  | succ n => exact takeKey_key_space k n more

theorem takeKey_key_blanks_end (k : SelectorKey) (n : Nat) :
    takeKey (k.text.toList ++ blanks n) = some (k.text, blanks n) := by
  simpa using @takeKey_key_blanks k n [] (by simp)

theorem trim_eq_dropSpace (cs : List Char) :
    trim cs = String.ofList (dropSpace (dropSpace cs).reverse).reverse := rfl

/-- Trimming a text with no blanks in it from the blanks around it gives the text. -/
theorem trim_blanks_around (a b : Nat) {V : List Char} (hV : ∀ c ∈ V, Text.isSpace c = false) :
    trim (blanks a ++ V ++ blanks b) = String.ofList V := by
  rw [trim_eq_dropSpace]
  cases V with
  | nil =>
    have hblank : dropSpace (blanks a ++ [] ++ blanks b) = [] :=
      dropSpace_eq_nil_of_blank fun c hc => by
        rcases List.mem_append.1 hc with hc | hc
        · exact blanks_isSpace a c (by simpa using hc)
        · exact blanks_isSpace b c hc
    rw [hblank]
    rfl
  | cons c cs =>
    rw [List.append_assoc, dropSpace_blanks_append a (by simp [hV c List.mem_cons_self]),
      List.reverse_append, show (blanks b).reverse = blanks b by simp [blanks],
      dropSpace_blanks_append b, List.reverse_reverse]
    -- the last character of the text is no blank
    cases h : (c :: cs).reverse with
    | nil => simp
    | cons d ds =>
      have hd : d ∈ c :: cs := List.mem_reverse.1 (h ▸ List.mem_cons_self)
      simp [hV d hd]

theorem SelectorValue.not_space (v : SelectorValue) :
    ∀ c ∈ v.text.toList, Text.isSpace c = false :=
  fun c hc => isSpace_of_selectorKeyChar (v.keyChar c hc)

theorem trim_value_blanks (a b : Nat) (v : SelectorValue) :
    trim (blanks a ++ v.text.toList ++ blanks b) = v.text := by
  rw [trim_blanks_around a b v.not_space, String.ofList_toList]

/-! ### Reading one requirement -/

/-- The closing parenthesis of a set requirement is the last one of its line. -/
theorem closeAt_eq (inner : List Char) (trail : Nat) :
    (inner ++ ')' :: blanks trail).length - 1 -
      (inner ++ ')' :: blanks trail).reverse.findIdx (· == ')') = inner.length := by
  have hfind : (blanks trail ++ ')' :: inner.reverse).findIdx (· == ')') = trail := by
    rw [List.findIdx_append]
    have hnone : (blanks trail).findIdx (· == ')') = (blanks trail).length := by
      rw [List.findIdx_eq_length]
      intro c hc
      rw [blanks, List.mem_replicate] at hc
      rw [hc.2]
      decide
    rw [hnone, if_neg (Nat.lt_irrefl _), List.findIdx_cons]
    simp [blanks]
  rw [List.reverse_append, List.reverse_cons, List.append_assoc, List.singleton_append,
    show (blanks trail).reverse = blanks trail by simp [blanks], hfind]
  simp only [List.length_append, List.length_cons, blanks, List.length_replicate]
  omega

/-- The set form reads a key, its word and options in parentheses on one line. -/
theorem parseSet_set_shape (lead trail : Nat) (k : SelectorKey) (isIn : Bool) (g₁ g₂ : Nat)
    (inner : List Char) (hinner : ∀ c ∈ inner, c ≠ '\n') :
    parseSet (blanks lead ++ (k.text.toList ++ (blanks (g₁ + 1) ++ (setWord isIn ++
      (blanks (g₂ + 1) ++ '(' :: (inner ++ ')' :: blanks trail)))))) =
      some (if isIn then .inSet k.text ((inner.splitOn ',').map trim)
        else .notInSet k.text ((inner.splitOn ',').map trim)) := by
  have hword : ∀ more, dropSpace (blanks (g₁ + 1) ++ (setWord isIn ++ more)) =
      setWord isIn ++ more := by
    intro more
    cases isIn <;> exact dropSpace_blanks_cons _ _ _ (by decide)
  have hparen := dropSpace_blanks_cons (g₂ + 1) '(' (inner ++ ')' :: blanks trail) (by decide)
  -- the options run to the end of the text, which is one line
  have hline : (inner ++ ')' :: blanks trail).takeWhile (· != '\n') =
      inner ++ ')' :: blanks trail := by
    have hall : ∀ x ∈ inner ++ ')' :: blanks trail, (x != '\n') = true := by
      intro x hx
      rcases List.mem_append.1 hx with hx | hx
      · simpa using hinner x hx
      · rcases List.mem_cons.1 hx with rfl | hx
        · decide
        · rw [blanks, List.mem_replicate] at hx
          rw [hx.2]
          decide
    have h := @List.takeWhile_append_of_pos _ (· != '\n') (inner ++ ')' :: blanks trail) [] hall
    simpa using h
  have hlen : ∀ (n : Nat) (xs : List Char),
      (xs.length == (blanks (n + 1) ++ xs).length) = false := by
    intro n xs
    simp [blanks]
  have hcontains : (inner ++ ')' :: blanks trail).contains ')' = true := by simp
  have hrest : ((inner ++ ')' :: blanks trail).drop (inner.length + 1)).all Text.isSpace = true := by
    have hdrop : (inner ++ ')' :: blanks trail).drop (inner.length + 1) = blanks trail := by
      simp [List.drop_append]
    rw [hdrop, List.all_eq_true]
    exact blanks_isSpace trail
  have htake : (inner ++ ')' :: blanks trail).take inner.length = inner := by simp
  unfold parseSet
  rw [dropSpace_lead_key, takeKey_key_space]
  simp only [Option.bind_eq_bind, Option.bind_some, hword, hlen, Bool.false_eq_true, if_false]
  cases isIn
  all_goals
    simp only [setWord, Bool.false_eq_true, if_true, if_false, List.cons_append, List.nil_append,
      hparen, hlen, hline, closeAt_eq, hcontains, hrest, htake, Bool.true_and]

/-- The options of a set, split at their commas and trimmed, are its values. -/
theorem options_of_chars (o : SetOption) (os : List SetOption) :
    (([','].intercalate ((o :: os).map SetOption.chars)).splitOn ',').map trim =
      (o :: os).map (·.value.text) := by
  have hcomma : ∀ l ∈ (o :: os).map SetOption.chars, ',' ∉ l := by
    intro l hl hc
    obtain ⟨o', -, rfl⟩ := List.mem_map.1 hl
    have hplain : Plain o'.chars := by
      simp [SetOption.chars, plain_of_keyChars o'.value.keyChar]
    exact (hplain ',' hc).2.2 rfl
  rw [List.splitOn_intercalate ',' hcomma (by simp), List.map_map]
  refine List.map_congr_left fun o' _ => ?_
  exact trim_value_blanks _ _ o'.value

/-- What follows a key in the equality form starts with the operator, which is neither a key
character nor a blank. -/
theorem comparison_head (op : Comparison) (rest : List Char) :
    ∀ c ∈ (op.chars ++ rest).head?, isKeyChar c = false ∧ Text.isSpace c = false := by
  intro c hc
  cases op <;> (obtain rfl := Option.some.inj hc; decide)

theorem parseEquality_compare (lead trail : Nat) (k : SelectorKey) (op : Comparison)
    (v : SelectorValue) (b a : Nat) :
    parseEquality (blanks lead ++ (k.text.toList ++ (blanks b ++ (op.chars ++
      (blanks a ++ (v.text.toList ++ blanks trail)))))) =
      some (match op with
        | .ne => .notEquals k.text v.text
        | _ => .equals k.text v.text) := by
  -- the value, trimmed, is the value written; it holds no line break
  have htrim : trim (blanks a ++ (v.text.toList ++ blanks trail)) = v.text := by
    rw [← List.append_assoc, trim_value_blanks]
  have hnl : '\n' ∉ v.text.toList :=
    fun h => ne_of_selectorKeyChar (v.keyChar _ h) (by decide) rfl
  unfold parseEquality
  rw [dropSpace_lead_key, takeKey_key_blanks k b fun c hc => (comparison_head op _ c hc).1]
  simp only [Option.bind_eq_bind, Option.bind_some,
    dropSpace_blanks_append b fun c hc => (comparison_head op _ c hc).2]
  cases op
  all_goals
    simp only [Comparison.chars, List.cons_append, List.nil_append]
  case eqEq => simp [htrim, hnl]
  case ne => simp [htrim, hnl]
  case eq =>
    -- after a single `=`, the value does not start with another `=`
    have hno : '=' ∉ blanks a ++ (v.text.toList ++ blanks trail) := by
      simp only [List.mem_append, blanks, List.mem_replicate, not_or]
      exact ⟨fun h => absurd h.2 (by decide),
        fun h => ne_of_selectorKeyChar (v.keyChar _ h) (by decide) rfl,
        fun h => absurd h.2 (by decide)⟩
    split
    next _ q heq => exact absurd ((List.cons.inj heq).2 ▸ List.mem_cons_self) hno
    next _ q heq => simp at heq
    next _ q _ heq =>
      obtain ⟨-, rfl⟩ := List.cons.inj heq
      simp [htrim, hnl]
    next _ _ _ hthird => exact absurd rfl (hthird _)

theorem parseSet_compare (lead trail : Nat) (k : SelectorKey) (op : Comparison)
    (v : SelectorValue) (b a : Nat) :
    parseSet (blanks lead ++ (k.text.toList ++ (blanks b ++ (op.chars ++
      (blanks a ++ (v.text.toList ++ blanks trail)))))) = none := by
  unfold parseSet
  rw [dropSpace_lead_key, takeKey_key_blanks k b fun c hc => (comparison_head op _ c hc).1]
  simp only [Option.bind_eq_bind, Option.bind_some,
    dropSpace_blanks_append b fun c hc => (comparison_head op _ c hc).2]
  cases op <;> simp [Comparison.chars]

theorem parseSet_present (lead trail : Nat) (k : SelectorKey) :
    parseSet (blanks lead ++ (k.text.toList ++ blanks trail)) = none := by
  unfold parseSet
  have hk := takeKey_key_blanks_end k trail
  rw [← List.append_nil (k.text.toList ++ blanks trail), List.append_assoc,
    dropSpace_lead_key, List.append_nil, hk]
  simp only [Option.bind_eq_bind, Option.bind_some]
  rw [dropSpace_eq_nil_of_blank (blanks_isSpace trail)]
  split <;> simp

theorem parseEquality_present (lead trail : Nat) (k : SelectorKey) :
    parseEquality (blanks lead ++ (k.text.toList ++ blanks trail)) = none := by
  unfold parseEquality
  rw [dropSpace_lead_key, takeKey_key_blanks_end]
  simp only [Option.bind_eq_bind, Option.bind_some]
  rw [dropSpace_eq_nil_of_blank (blanks_isSpace trail)]
  rfl

theorem parseExistence_present (lead trail : Nat) (k : SelectorKey) :
    parseExistence (blanks lead ++ (k.text.toList ++ blanks trail)) = some (.present k.text) := by
  obtain ⟨c, cs, hc⟩ := List.exists_cons_of_ne_nil k.nonempty
  have hbang := ne_of_selectorKeyChar (k.valid c (hc ▸ List.mem_cons_self)) (d := '!') (by decide)
  unfold parseExistence
  rw [dropSpace_lead_key]
  dsimp only
  split
  next q heq =>
    rw [hc, List.cons_append] at heq
    exact absurd (List.cons.inj heq).1 hbang
  next =>
    simp only [Option.bind_eq_bind, takeKey_key_blanks_end, Option.bind_some,
      List.all_eq_true.2 (blanks_isSpace trail), if_true, Bool.false_eq_true, if_false]

theorem parseSet_absent (lead trail : Nat) (k : SelectorKey) (g : Nat) :
    parseSet (blanks lead ++ ('!' :: (blanks g ++ (k.text.toList ++ blanks trail)))) = none := by
  unfold parseSet
  rw [dropSpace_blanks_cons lead '!' _ (by decide)]
  rfl

theorem parseEquality_absent (lead trail : Nat) (k : SelectorKey) (g : Nat) :
    parseEquality (blanks lead ++ ('!' :: (blanks g ++ (k.text.toList ++ blanks trail)))) =
      none := by
  unfold parseEquality
  rw [dropSpace_blanks_cons lead '!' _ (by decide)]
  rfl

theorem parseExistence_absent (lead trail : Nat) (k : SelectorKey) (g : Nat) :
    parseExistence (blanks lead ++ ('!' :: (blanks g ++ (k.text.toList ++ blanks trail)))) =
      some (.absent k.text) := by
  unfold parseExistence
  rw [dropSpace_blanks_cons lead '!' _ (by decide)]
  dsimp only
  split
  next q heq =>
    obtain ⟨-, rfl⟩ := List.cons.inj heq
    simp only [dropSpace_lead_key, Option.bind_eq_bind, takeKey_key_blanks_end, Option.bind_some,
      List.all_eq_true.2 (blanks_isSpace trail), if_true]
  next hbang => exact absurd rfl (hbang _)

/-- The requirement a written one stands for. -/
def Written.toRequirement : Written → Requirement
  | .compare k .ne v _ _ => .notEquals k.text v.text
  | .compare k _ v _ _ => .equals k.text v.text
  | .set k isIn _ _ o os =>
    if isIn then .inSet k.text ((o :: os).map (·.value.text))
    else .notInSet k.text ((o :: os).map (·.value.text))
  | .present k => .present k.text
  | .absent k _ => .absent k.text

/-- A written requirement is read as the requirement it stands for. -/
theorem parse_render (p : PaddedRequirement) :
    Requirement.parse p.render = p.req.toRequirement := by
  obtain ⟨lead, r, trail⟩ := p
  -- each form is regrouped into the shape its reading lemmas take
  cases r with
  | compare k op v b a =>
    have hchars : (PaddedRequirement.mk lead (.compare k op v b a) trail).chars =
        blanks lead ++ (k.text.toList ++ (blanks b ++ (op.chars ++ (blanks a ++
          (v.text.toList ++ blanks trail))))) := by
      simp [PaddedRequirement.chars, Written.chars]
    simp only [Requirement.parse, PaddedRequirement.render, String.toList_ofList, hchars,
      parseSet_compare, parseEquality_compare]
    cases op <;> rfl
  | set k isIn g₁ g₂ o os =>
    have hchars : (PaddedRequirement.mk lead (.set k isIn g₁ g₂ o os) trail).chars =
        blanks lead ++ (k.text.toList ++ (blanks (g₁ + 1) ++ (setWord isIn ++ (blanks (g₂ + 1) ++
          '(' :: ([','].intercalate ((o :: os).map SetOption.chars) ++ ')' :: blanks trail))))) := by
      simp [PaddedRequirement.chars, Written.chars]
    have hnl : ∀ c ∈ [','].intercalate ((o :: os).map SetOption.chars), c ≠ '\n' := by
      intro c hc
      rcases options_chars o os c hc with rfl | rfl | hv
      · decide
      · decide
      · exact ne_of_selectorKeyChar (isSelectorKeyChar_of_value hv) (by decide)
    simp only [Requirement.parse, PaddedRequirement.render, String.toList_ofList, hchars,
      parseSet_set_shape _ _ _ _ _ _ _ hnl, options_of_chars]
    rfl
  | present k =>
    have hchars : (PaddedRequirement.mk lead (.present k) trail).chars =
        blanks lead ++ (k.text.toList ++ blanks trail) := by
      simp [PaddedRequirement.chars, Written.chars]
    simp only [Requirement.parse, PaddedRequirement.render, String.toList_ofList, hchars,
      parseSet_present, parseEquality_present, parseExistence_present]
    rfl
  | absent k g =>
    have hchars : (PaddedRequirement.mk lead (.absent k g) trail).chars =
        blanks lead ++ ('!' :: (blanks g ++ (k.text.toList ++ blanks trail))) := by
      simp [PaddedRequirement.chars, Written.chars]
    simp only [Requirement.parse, PaddedRequirement.render, String.toList_ofList, hchars,
      parseSet_absent, parseEquality_absent, parseExistence_absent]
    rfl

end OperandLifecycle.Cluster
