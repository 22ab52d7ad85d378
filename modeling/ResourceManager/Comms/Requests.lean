import ResourceManager.Comms.Commands

/-!
# The tokens of a JOB_REQUEST

`Names token t` is the grammar `@ip:port:resource:amount` of a token, with the resource and
the numbers that it stands for. `handle_job_request` reads such a token as it stands
(`scanToken_of_names`).
-/

namespace ResourceManager

open Library.Fields Library.Numerals Library.Scanf

/-- The name of a resource in the protocol. -/
def Resource.name : Resource → List Char
  | .cpu => "cpu".toList
  | .ram => "mem".toList
  | .gpu => "gpu".toList

/-- The text of a token, for given numerals. -/
def tokenText (t : ResourceToken) (port cant : List Char) : List Char :=
  '@' :: (t.ip.text ++ ':' :: (port ++ ':' :: (t.type.name ++ ':' :: cant)))

/-- The token names the petition `t`. -/
def Names (token : List Char) (t : ResourceToken) : Prop :=
  ∃ port cant, Decimal port t.port.toNat ∧ Decimal cant t.cant.toNat ∧ t.ip.text ≠ [] ∧
    ':' ∉ t.ip.text ∧ token = tokenText t port cant

theorem requestedType_name (type : Resource) : requestedType type.name = type := by
  cases type <;> decide

theorem ofText_text (ip : Ip) : Ip.ofText ip.text = ip := by
  have htake : ip.text.take 15 = ip.text := List.take_of_length_le ip.fits
  cases ip
  simp only [Ip.ofText, Ip.mk.injEq]
  exact htake

theorem scanToken_of_names {token : List Char} {t : ResourceToken} (h : Names token t) :
    scanToken token = some t := by
  obtain ⟨port, cant, hport, hcant, hne, hcolon, rfl⟩ := h
  have hname : t.type.name ≠ [] ∧ ':' ∉ t.type.name ∧ t.type.name.length ≤ 9 := by
    cases t.type <;> decide
  have hnext : ∀ (c : Char) (rest : List Char), c.isDigit = false →
      ∀ x ∈ (c :: rest).head?, x.isDigit = false := by
    intro c rest hc x hx
    cases hx
    exact hc
  have hscan : sscanf tokenFormat (tokenText t port cant) =
      [.str t.ip.text, .num t.port, .str t.type.name, .num t.cant] := by
    have hend : sscanf [.unsigned] (cant ++ []) = [.num t.cant] :=
      sscanf_unsigned hcant [] (by simp)
    rw [List.append_nil] at hend
    rw [tokenFormat, tokenText, sscanf, if_pos rfl, sscanf_until hne hcolon t.ip.fits, sscanf,
      if_pos rfl, sscanf_unsigned hport _ (hnext _ _ (by decide)), sscanf, if_pos rfl,
      sscanf_until hname.1 hname.2.1 hname.2.2, sscanf, if_pos rfl, hend]
  rw [scanToken, hscan]
  dsimp only
  rw [ofText_text, requestedType_name]

/-- Tokens that all name petitions are read as these. -/
theorem filterMap_scanToken {tokens : List (List Char)} {ts : List ResourceToken}
    (h : List.Forall₂ Names tokens ts) : tokens.filterMap scanToken = ts := by
  induction h with
  | nil => rfl
  | cons hnames _ ih => rw [List.filterMap_cons_some (scanToken_of_names hnames), ih]

/-- The words of a line in which single blanks separate them. -/
theorem words_flatMap {ts : List (List Char)}
    (hts : ∀ t ∈ ts, t ≠ [] ∧ ∀ c ∈ t, isBlank c = false) : ∀ {w : List Char}, w ≠ [] →
      (∀ c ∈ w, isBlank c = false) → words (w ++ ts.flatMap fun t => ' ' :: t) = w :: ts := by
  induction ts with
  | nil =>
    intro w hne hw
    rw [List.flatMap_nil, List.append_nil, words, fields_word hw hne]
  | cons t ts ih =>
    intro w hne hw
    obtain ⟨htne, ht⟩ := hts t List.mem_cons_self
    have hrest := ih (fun t' ht' => hts t' (List.mem_cons_of_mem _ ht')) htne ht
    rw [List.flatMap_cons, List.cons_append, words, fields_append_cons rfl, fields_word hw hne,
      ← words, hrest]
    rfl

/-- A command whose only argument is an id. -/
theorem scanId_append {digits : List Char} {jobId : UInt32} (h : Decimal digits jobId.toNat)
    (name : List Char) {rest : List Char} (hrest : ∀ c ∈ rest.head?, c.isDigit = false) :
    scanId name (name ++ ' ' :: (digits ++ rest)) = some jobId := by
  have hscan : sscanf (literal name ++ [.space, .unsigned]) (name ++ ' ' :: (digits ++ rest)) =
      [.num jobId] := by
    rw [sscanf_literal, sscanf, List.dropWhile_cons_of_pos (by decide), dropWhile_isSpace h,
      sscanf_unsigned h [] hrest]
    rfl
  rw [scanId, hscan]

/-! ## The tokens of a line -/

/-- The white space between the command and the id. -/
def commandSpace (line : List Char) : List Char :=
  (line.drop "JOB_REQUEST".toList.length).takeWhile isSpace

/-- The resource tokens of a line: the words that follow the command and the id. -/
def resourceWords (line : List Char) : List (List Char) :=
  words (((line.drop "JOB_REQUEST".toList.length).dropWhile isSpace).dropWhile fun c => !isBlank c)

theorem scanToken_of_head {w : List Char} (h : w.head? ≠ some '@') : scanToken w = none := by
  have hscan : sscanf tokenFormat w = [] := by
    cases w with
    | nil => rfl
    | cons c w =>
      rw [tokenFormat, sscanf, if_neg]
      rintro rfl
      exact h rfl
  rw [scanToken, hscan]

/-- What `sscanf` has read when it converts the id of a line. -/
theorem exists_of_scanId {name line : List Char} {jobId : UInt32}
    (h : scanId name line = some jobId) :
    ∃ s c t, line = name ++ s ∧ s.dropWhile isSpace = c :: t ∧ c ≠ '@' := by
  have hconv : sscanf (literal name ++ [.space, .unsigned]) line ≠ [] := by
    intro hnil
    rw [scanId, hnil] at h
    cases h
  clear h
  induction name generalizing line with
  | nil =>
    refine ⟨line, ?_⟩
    cases hdrop : line.dropWhile isSpace with
    | nil =>
      rw [literal, List.map_nil, List.nil_append, sscanf, hdrop] at hconv
      exact absurd rfl hconv
    | cons c t =>
      refine ⟨c, t, rfl, rfl, ?_⟩
      rintro rfl
      rw [literal, List.map_nil, List.nil_append, sscanf, hdrop] at hconv
      exact hconv rfl
  | cons d name ih =>
    cases line with
    | nil => exact absurd rfl hconv
    | cons e line =>
      by_cases hde : e = d
      · subst hde
        have hrest : sscanf (literal name ++ [.space, .unsigned]) line ≠ [] := by
          intro hnil
          refine hconv ?_
          rw [literal, List.map_cons, List.cons_append, sscanf, if_pos rfl]
          exact hnil
        obtain ⟨s, c, t, rfl, hs⟩ := ih hrest
        exact ⟨s, c, t, rfl, hs⟩
      · refine absurd ?_ hconv
        rw [literal, List.map_cons, List.cons_append, sscanf, if_neg hde]

/-- The text after the command and the id starts a new word. -/
theorem words_append_dropWhile (a l : List Char) :
    words (a ++ l.dropWhile fun c => !isBlank c) =
      words a ++ words (l.dropWhile fun c => !isBlank c) := by
  cases hdrop : l.dropWhile fun c => !isBlank c with
  | nil => simp [words]
  | cons c r =>
    have hc : isBlank c = true := by
      have := List.head_dropWhile_not (fun c => !isBlank c) (l := l) (by rw [hdrop]; simp)
      simpa [hdrop] using this
    apply fields_append_of_clean
    exact Or.inr ⟨c, rfl, hc⟩

section Command

variable {ws id : List Char} {c : Char}

/-- The beginning of a line is a single word if no blank stands before the id. -/
theorem words_command_of_no_blank (hws : ' ' ∉ ws) (hid : ∀ x ∈ id, isBlank x = false) :
    words ("JOB_REQUEST".toList ++ ws ++ id) = ["JOB_REQUEST".toList ++ ws ++ id] := by
  have hcommand : ' ' ∉ "JOB_REQUEST".toList := by decide
  apply fields_word
  · intro x hx
    rcases List.mem_append.mp hx with hx | hx
    · exact isBlank_of_notMem (fun hmem => (List.mem_append.mp hmem).elim hcommand hws) x hx
    · exact hid x hx
  · simp

/-- Otherwise it is two words or more, and none of them is a token. -/
theorem words_command_of_blank (hblank : ' ' ∈ ws) (hws : '@' ∉ ws)
    (hid : ∀ x ∈ c :: id, isBlank x = false) (hc : c ≠ '@') :
    2 ≤ (words ("JOB_REQUEST".toList ++ ws ++ c :: id)).length ∧
      ∀ w ∈ words ("JOB_REQUEST".toList ++ ws ++ c :: id), scanToken w = none := by
  -- the last blank ends a word, and the id stands in the next one
  obtain ⟨b, a, rfl, ha⟩ : ∃ b a, ws = b ++ ' ' :: a ∧ ' ' ∉ a := by
    obtain ⟨a, b, hab, ha⟩ := List.eq_append_cons_of_mem (List.mem_reverse.mpr hblank)
    refine ⟨b.reverse, a.reverse, ?_, by simpa using ha⟩
    rw [← List.reverse_reverse ws, hab]
    simp
  have hword : ∀ x ∈ a ++ c :: id, isBlank x = false := by
    intro x hx
    rcases List.mem_append.mp hx with hx | hx
    · exact isBlank_of_notMem ha x hx
    · exact hid x hx
  have hsplit : words ("JOB_REQUEST".toList ++ (b ++ ' ' :: a) ++ c :: id) =
      words ("JOB_REQUEST".toList ++ b) ++ [a ++ c :: id] := by
    rw [show "JOB_REQUEST".toList ++ (b ++ ' ' :: a) ++ c :: id =
      ("JOB_REQUEST".toList ++ b) ++ ' ' :: (a ++ c :: id) by simp, words,
      fields_append_cons rfl, fields_word hword (by simp)]
  rw [hsplit]
  constructor
  · have hpos : 0 < (words ("JOB_REQUEST".toList ++ b)).length :=
      List.length_pos_iff.mpr (fields_cons_ne_nil (by decide) _)
    rw [List.length_append, List.length_singleton]
    omega
  · intro w hw
    apply scanToken_of_head
    intro hhead
    have hcommand : '@' ∉ "JOB_REQUEST".toList := by decide
    rcases List.mem_append.mp hw with hw | hw
    · rcases List.mem_append.mp (mem_of_mem_fields hw (List.mem_of_mem_head? hhead))
        with hmem | hmem
      · exact hcommand hmem
      · exact hws (List.mem_append_left _ hmem)
    · rw [List.mem_singleton.mp hw] at hhead
      cases a with
      | nil => exact hc (Option.some.inj hhead)
      | cons d a =>
        refine hws ?_
        rw [← Option.some.inj hhead]
        simp

end Command

/-- The loop over the tokens sees those of the line if a blank stands between the command
and the id; otherwise it misses the first one. -/
theorem requestTokens_of_scanId {line : List Char} {jobId : UInt32}
    (h : scanId "JOB_REQUEST".toList line = some jobId) :
    requestTokens line = (if ' ' ∈ commandSpace line then resourceWords line
      else (resourceWords line).tail).filterMap scanToken := by
  obtain ⟨s, c, t, rfl, hdrop, hat⟩ := exists_of_scanId h
  have hc : isBlank c = false := by
    have hspace := List.head_dropWhile_not isSpace (l := s) (by rw [hdrop]; simp)
    simp only [hdrop, List.head_cons] at hspace
    rw [isBlank, beq_eq_false_iff_ne]
    rintro rfl
    exact absurd hspace (by decide)
  have hws : '@' ∉ s.takeWhile isSpace := by
    intro hmem
    exact absurd (List.all_eq_true.mp List.all_takeWhile _ hmem) (by decide)
  have hid : ∀ x ∈ c :: t.takeWhile (fun c => !isBlank c), isBlank x = false := by
    intro x hx
    rcases List.mem_cons.mp hx with rfl | hx
    · exact hc
    · simpa using List.all_eq_true.mp List.all_takeWhile x hx
  have hrest : (c :: t).dropWhile (fun c => !isBlank c) = t.dropWhile fun c => !isBlank c :=
    List.dropWhile_cons_of_pos (by rw [hc]; rfl)
  have hwords : words ("JOB_REQUEST".toList ++ s) =
      words ("JOB_REQUEST".toList ++ s.takeWhile isSpace ++ c :: t.takeWhile fun c => !isBlank c) ++
        words (t.dropWhile fun c => !isBlank c) := by
    rw [← words_append_dropWhile, List.append_assoc, List.append_assoc, List.cons_append,
      List.takeWhile_append_dropWhile, ← hdrop, List.takeWhile_append_dropWhile]
  unfold requestTokens requestWords commandSpace resourceWords
  rw [List.drop_left, hdrop, hrest, hwords]
  split
  · rename_i hblank
    obtain ⟨htwo, hskip⟩ := words_command_of_blank hblank hws hid hat
    rw [List.drop_append_of_le_length htwo, List.filterMap_append,
      List.filterMap_eq_nil_iff.mpr fun w hw => hskip w (List.mem_of_mem_drop hw), List.nil_append]
  · rename_i hblank
    rw [words_command_of_no_blank hblank hid, ← List.drop_one]
    rfl

end ResourceManager
