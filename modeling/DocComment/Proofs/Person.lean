/-
Writing people, and reading back who was written.

`Parts` are the parts that a person can be written with, and `Parts.written` puts them one behind
the other, a space between two.  What the reader makes of it is found from the end:

* `IsPart.upTo?_eq` — a part goes up to the mark that closes it;
* `tail?_behind` — email and address are read off with the spaces before them;
* `nameAndTail?_append` — no name shorter than the written one will do, for what would be left of it
  is neither blank nor in brackets.

`parse?_written` says that the parts come back, with the text that was read.
-/
import DocComment.Person
import DocComment.Proofs.Text.Cut
import DocComment.Proofs.Text.Trim
import Mathlib.Data.List.DropRight

namespace DocComment.Person

open Text

/-- A part as it can be written: trimmed, not empty, and without the characters that would end
it. -/
structure IsPart (without : List Char) (s : String) : Prop where
  ne_nil : s.toList ≠ []
  trim_eq : trim s.toList = s.toList
  notMem : ∀ c ∈ without, c ∉ s.toList

instance (without : List Char) (s : String) : Decidable (IsPart without s) :=
  decidable_of_iff (s.toList ≠ [] ∧ trim s.toList = s.toList ∧
      without.all fun c => !s.toList.contains c)
    ⟨fun ⟨h₁, h₂, h₃⟩ => ⟨h₁, h₂, by simpa using h₃⟩,
      fun ⟨h₁, h₂, h₃⟩ => ⟨h₁, h₂, by simpa using h₃⟩⟩

/-- What a person can be written with; one of the parts is there. -/
structure Parts where
  name : Option String
  email : Option String
  url : Option String
  isPart_name : ∀ s ∈ name, IsPart ['<', '('] s
  isPart_email : ∀ s ∈ email, IsPart ['>', '('] s
  isPart_url : ∀ s ∈ url, IsPart [')'] s
  exists_part : name.isSome ∨ email.isSome ∨ url.isSome

def emailWord (s : String) : Text := '<' :: s.toList ++ ['>']

def urlWord (s : String) : Text := '(' :: s.toList ++ [')']

namespace Parts

def nameWords (p : Parts) : List Text := (p.name.map String.toList).toList

def tailWords (p : Parts) : List Text :=
  (p.email.map emailWord).toList ++ (p.url.map urlWord).toList

/-- The parts that are there, with single spaces between. -/
def written (p : Parts) : String :=
  String.ofList ([' '].intercalate (p.nameWords ++ p.tailWords))

end Parts

/-- Words with a space before each. -/
def behind (ws : List Text) : Text := ws.flatMap (' ' :: ·)

theorem intercalate_cons_eq_behind (w : Text) (ws : List Text) :
    [' '].intercalate (w :: ws) = w ++ behind ws :=
  intercalate_cons [' '] w ws

/-! ### Parts in brackets -/

theorem IsPart.upTo?_eq {last : Char} {without : List Char} {s : String}
    (h : IsPart (last :: without) s) (rest : Text) :
    upTo? last without (s.toList ++ last :: rest) = some (s.toList, rest) := by
  have hinner : (s.toList ++ last :: rest).takeWhile
      (fun c => c != last && !without.contains c) = s.toList := by
    rw [List.takeWhile_append_of_pos, List.takeWhile_cons_of_neg (by simp), List.append_nil]
    intro c hc
    have hlast : c ≠ last := by
      rintro rfl
      exact h.notMem c List.mem_cons_self hc
    have hwithout : c ∉ without := fun hw => h.notMem c (List.mem_cons_of_mem last hw) hc
    simp [hlast, hwithout]
  rw [upTo?, hinner, List.drop_left]
  simp [h.ne_nil]

theorem address?_behind {url : Option String} (h : ∀ s ∈ url, IsPart [')'] s) :
    address? (behind (url.map urlWord).toList) = some (url.map String.toList) := by
  cases url with
  | none => rfl
  | some u =>
    have hread := (h u rfl).upTo?_eq []
    have htext : (behind ((some u).map urlWord).toList).dropWhile isIndent =
        '(' :: (u.toList ++ ')' :: []) := by
      simp [behind, urlWord, isIndent]
    rw [address?, htext]
    show (upTo? ')' [] (u.toList ++ ')' :: [])).map _ = _
    rw [hread]
    rfl

/-! ### The parts after the name -/

theorem tail?_space_cons (t : Text) : tail? (' ' :: t) = tail? t := by
  have hspace : (' ' :: t).dropWhile isIndent = t.dropWhile isIndent :=
    List.dropWhile_cons_of_pos rfl
  rw [tail?, tail?, hspace]

theorem address?_dropWhile (t : Text) : address? (t.dropWhile isIndent) = address? t := by
  rw [address?, address?, List.dropWhile_idempotent]

/-- Without an email the address comes first. -/
theorem tail?_of_head?_ne {t : Text} (h : (t.dropWhile isIndent).head? ≠ some '<') :
    tail? t = (address? t).map fun url => ⟨none, url⟩ := by
  rw [tail?, address?_dropWhile]
  dsimp only
  split
  · next u hu =>
    rw [hu] at h
    exact absurd rfl h
  · rfl

theorem tail?_email {e : String} (he : IsPart ['>', '('] e) {rest : Text} {url : Option Text}
    (h : address? rest = some url) : tail? (emailWord e ++ rest) = some ⟨some e.toList, url⟩ := by
  have hread := he.upTo?_eq rest
  have htext : (emailWord e ++ rest).dropWhile isIndent = '<' :: (e.toList ++ '>' :: rest) := by
    simp [emailWord, isIndent]
  rw [tail?, htext]
  show Option.or (upTo? '>' ['('] (e.toList ++ '>' :: rest) >>= _) _ = _
  rw [hread]
  show Option.or (address? rest >>= _) _ = _
  rw [h]
  rfl

/-- Behind the blanks of `n` comes neither an email, nor an address, nor the end. -/
theorem tail?_append_eq_none {n : Text} (hne : n.dropWhile isIndent ≠ []) (hemail : '<' ∉ n)
    (hurl : '(' ∉ n) (r : Text) : tail? (n ++ r) = none := by
  obtain ⟨c, u, hu⟩ := List.exists_cons_of_ne_nil hne
  have hc : c ∈ n := (List.dropWhile_sublist isIndent).subset (hu ▸ List.mem_cons_self)
  have htext : (n ++ r).dropWhile isIndent = c :: (u ++ r) := by
    rw [List.dropWhile_append, hu]
    rfl
  have hother : c ≠ '<' ∧ c ≠ '(' := ⟨fun h => hemail (h ▸ hc), fun h => hurl (h ▸ hc)⟩
  rw [tail?_of_head?_ne (by simpa [htext] using hother.1), address?, htext]
  split
  · next hnil => cases hnil
  · next v hv => exact absurd (List.cons.inj hv).1 hother.2
  · rfl

theorem tail?_behind (p : Parts) :
    tail? (behind p.tailWords) = some ⟨p.email.map String.toList, p.url.map String.toList⟩ := by
  have haddress := address?_behind p.isPart_url
  cases hemail : p.email with
  | none =>
    have htail : behind p.tailWords = behind (p.url.map urlWord).toList := by
      rw [Parts.tailWords, hemail]
      rfl
    rw [htail, tail?_of_head?_ne, haddress]
    · rfl
    · cases p.url with
      | none => simp [behind]
      | some u => simp [behind, urlWord, isIndent]
  | some e =>
    have htail : behind p.tailWords =
        ' ' :: (emailWord e ++ behind (p.url.map urlWord).toList) := by
      rw [Parts.tailWords, hemail]
      rfl
    rw [htail, tail?_space_cons, tail?_email (p.isPart_email e hemail) haddress]
    rfl

/-! ### The name -/

/-- A name is read as a whole if its last character is no blank. -/
theorem nameAndTail?_append {n r : Text} {tail : Tail} (hne : n ≠ [])
    (hend : ∀ c ∈ n.getLast?, isIndent c = false) (hemail : '<' ∉ n) (hurl : '(' ∉ n)
    (htail : tail? r = some tail) : nameAndTail? (n ++ r) = some (n, tail) := by
  induction n with
  | nil => exact absurd rfl hne
  | cons c n ih =>
    rw [List.mem_cons, not_or] at hemail hurl
    rw [List.cons_append, nameAndTail?, if_neg (by simp [Ne.symm hemail.1, Ne.symm hurl.1])]
    by_cases hn : n = []
    · rw [hn, List.nil_append, htail]
    · have hend' : ∀ d ∈ n.getLast?, isIndent d = false := by
        rwa [List.getLast?_cons_of_ne_nil hn] at hend
      have hrest : n.dropWhile isIndent ≠ [] := by
        intro hnil
        have hlast := hend' (n.getLast hn) (List.getLast_mem_getLast? hn)
        rw [List.dropWhile_eq_nil_iff.mp hnil _ (List.getLast_mem hn)] at hlast
        cases hlast
      rw [tail?_append_eq_none hrest hemail.2 hurl.2, ih hn hend' hemail.2 hurl.2]
      rfl

/-- Without a name the text begins with an email or an address. -/
theorem exists_tailWords_eq {p : Parts} (h : p.name = none) :
    ∃ c u ws, (c = '<' ∨ c = '(') ∧ p.tailWords = (c :: u) :: ws := by
  rw [Parts.tailWords]
  cases hemail : p.email with
  | some e => exact ⟨'<', _, _, Or.inl rfl, rfl⟩
  | none =>
    cases hurl : p.url with
    | some u => exact ⟨'(', _, _, Or.inr rfl, rfl⟩
    | none => simpa [h, hemail, hurl] using p.exists_part

theorem nameAndTail?_of_head? {t : Text} (h : ∀ c ∈ t.head?, c = '<' ∨ c = '(') :
    nameAndTail? t = none := by
  cases t with
  | nil => rfl
  | cons c t =>
    rw [nameAndTail?, if_pos]
    rcases h c rfl with rfl | rfl <;> rfl

/-! ### The person -/

theorem IsPart.part {without : List Char} {s : String} (h : IsPart without s) :
    part (some s.toList) = some s := by
  show (if (trim s.toList).isEmpty then none else some (String.ofList (trim s.toList))) = some s
  rw [h.trim_eq, if_neg (by simpa using h.ne_nil), String.ofList_toList]

theorem part_map_toList {without : List Char} {o : Option String}
    (h : ∀ s ∈ o, IsPart without s) : part (o.map String.toList) = o := by
  cases o with
  | none => rfl
  | some s => exact (h s rfl).part

/-- The name and what follows it are cut apart where they were put together. -/
theorem nameAndTail_written (p : Parts) :
    ((nameAndTail? p.written.toList).map fun (name, tail) => (some name, tail)).or
      ((tail? p.written.toList).map (none, ·)) =
    some (p.name.map String.toList, ⟨p.email.map String.toList, p.url.map String.toList⟩) := by
  have htail := tail?_behind p
  rw [Parts.written, String.toList_ofList, Parts.nameWords]
  cases hname : p.name with
  | some n =>
    have hpart := p.isPart_name n hname
    have hend : ∀ c ∈ n.toList.getLast?, isIndent c = false := by
      intro c hc
      have hblank := trimEnd_eq_self_iff.mp (trimEnd_of_trim_eq hpart.trim_eq) c hc
      exact Bool.eq_false_iff.mpr fun h => Bool.eq_false_iff.mp hblank (isBlank_of_isIndent h)
    have hread := nameAndTail?_append hpart.ne_nil hend (hpart.notMem '<' (by simp))
      (hpart.notMem '(' (by simp)) htail
    show ((nameAndTail? ([' '].intercalate (n.toList :: p.tailWords))).map _).or _ = _
    rw [intercalate_cons_eq_behind, hread]
    rfl
  | none =>
    show ((nameAndTail? ([' '].intercalate p.tailWords)).map _).or
      ((tail? ([' '].intercalate p.tailWords)).map _) = _
    obtain ⟨c, u, ws, hc, hwords⟩ := exists_tailWords_eq hname
    have hspace : behind p.tailWords = ' ' :: [' '].intercalate p.tailWords := by
      rw [hwords, intercalate_cons_eq_behind]
      simp [behind]
    have hnone : nameAndTail? ([' '].intercalate p.tailWords) = none := by
      rw [hwords, intercalate_cons_eq_behind]
      refine nameAndTail?_of_head? fun d hd => ?_
      cases hd
      exact hc
    rw [hspace, tail?_space_cons] at htail
    rw [hnone, htail]
    rfl

/-- **Reading undoes writing**: of a person written with a name, an email and an address, some of
them or all, exactly these parts are read, and the text is kept. -/
theorem parse?_written (p : Parts) :
    parse? p.written = some ⟨p.name, p.email, p.url, p.written⟩ := by
  have hsome : (p.name.isNone && p.email.isNone && p.url.isNone) = false := by
    rcases p.exists_part with h | h | h <;> simp [Option.isNone_eq_false_iff.mpr h]
  rw [parse?]
  dsimp only
  rw [nameAndTail_written p]
  show (if _ then none else some (Person.mk (part _) (part _) (part _) _)) = _
  rw [part_map_toList p.isPart_name, part_map_toList p.isPart_email, part_map_toList p.isPart_url]
  exact if_neg (by simp [hsome])

/-- Parts that hold brackets of the other kinds, and an address over two lines. -/
def sample : Parts where
  name := some "Doe > Roe)"
  email := some "a<b)"
  url := some "x (1>\n<y"
  isPart_name := by decide
  isPart_email := by decide
  isPart_url := by decide
  exists_part := by decide

theorem parse?_written_sample :
    parse? "Doe > Roe) <a<b)> (x (1>\n<y)" =
      some ⟨some "Doe > Roe)", some "a<b)", some "x (1>\n<y", "Doe > Roe) <a<b)> (x (1>\n<y)"⟩ :=
  parse?_written sample

end DocComment.Person
