import SchemaTypes.Proofs.TypeScript.Outlines

/-! The grammar of type expressions. The text of an expression is a sentence, and a sentence stands
for one expression only: brackets bind tighter than bars, and a bar is not found in a name. -/

namespace SchemaTypes

open Text

namespace TypeExpr

/-- What brackets behind a sentence belong to: to all of it, or to its last member only. -/
inductive Binding where
  | tight
  | loose

/-- The sentences, each with the expression that it stands for. -/
inductive Sentence : Binding → List Char → TypeExpr → Prop
  | ident {name : String} (h : isIdentifier name) : Sentence .tight name.toList (.ident name)
  | array {cs : List Char} {e : TypeExpr} (h : Sentence .tight cs e) :
      Sentence .tight (cs ++ ['[', ']']) (.array e)
  | group {cs : List Char} {e : TypeExpr} (h : Sentence .loose cs e) :
      Sentence .tight ('(' :: (cs ++ [')', '[', ']'])) (.array e)
  | tuple {parts : List (List Char × TypeExpr)}
      (h : ∀ part ∈ parts, Sentence .loose part.1 part.2) :
      Sentence .tight ('[' :: (joinChars [',', ' '] (parts.map (·.1)) ++ [']']))
        (.tuple (parts.map (·.2)))
  | index {ks cs : List Char} {key value : TypeExpr} (hindex : key.isIndexKey)
      (hkey : Sentence .loose ks key) (h : Sentence .loose cs value) :
      Sentence .tight ('{' :: (" [key: ".toList ++ (ks ++ ("]: ".toList ++
        (cs ++ [';', ' ', '}']))))) (.dictionary key value)
  | mapped {ks cs : List Char} {key value : TypeExpr} (hkey : Sentence .loose ks key)
      (h : Sentence .loose cs value) :
      Sentence .tight ('{' :: (" [key in ".toList ++ (ks ++ ("]?: ".toList ++
        (cs ++ [';', ' ', '}']))))) (.dictionary key value)
  | single {cs : List Char} {e : TypeExpr} (h : Sentence .tight cs e) : Sentence .loose cs e
  | union {cs ds : List Char} {e f : TypeExpr} (h : Sentence .loose cs e)
      (h' : Sentence .loose ds f) :
      Sentence .loose (cs ++ (bar ++ ds)) (.union (e.unionMembers ++ f.unionMembers))

section

/-! Reading a sentence. Each call reads a shorter text, so that some bound on the calls is
enough. -/

/-- Each pair of brackets behind an expression makes an array of it. -/
def readBrackets (e : TypeExpr) : List Char → TypeExpr × List Char
  | '[' :: ']' :: rest => readBrackets (.array e) rest
  | rest => (e, rest)

mutual

def readLoose : ℕ → List Char → Option (TypeExpr × List Char)
  | 0, _ => none
  | bound + 1, cs => do
    let (e, rest) ← readTight bound cs
    match rest.dropPrefix? bar with
    | some rest =>
      let (f, rest) ← readLoose bound rest
      return (.union (e.unionMembers ++ f.unionMembers), rest)
    | none => return (e, rest)

def readTight : ℕ → List Char → Option (TypeExpr × List Char)
  | 0, _ => none
  | bound + 1, cs => do
    let (e, rest) ← readAtom bound cs
    return readBrackets e rest

def readAtom : ℕ → List Char → Option (TypeExpr × List Char)
  | 0, _ => none
  | bound + 1, '(' :: cs => do
    let (e, rest) ← readLoose bound cs
    return (.array e, ← rest.dropPrefix? [')', '[', ']'])
  | _ + 1, '[' :: ']' :: rest => some (.tuple [], rest)
  | bound + 1, '[' :: cs => do
    let (es, rest) ← readSequence bound cs
    return (.tuple es, rest)
  | bound + 1, '{' :: cs => do
    let (inner, close) ←
      match cs.dropPrefix? " [key: ".toList with
      | some cs => pure (cs, "]: ".toList)
      | none => (cs.dropPrefix? " [key in ".toList).map (·, "]?: ".toList)
    let (key, rest) ← readLoose bound inner
    let (value, rest) ← readLoose bound (← rest.dropPrefix? close)
    return (.dictionary key value, ← rest.dropPrefix? [';', ' ', '}'])
  | _ + 1, cs => some ((readName cs).map .ident id)

/-- Expressions between commas up to a closing bracket. -/
def readSequence : ℕ → List Char → Option (List TypeExpr × List Char)
  | 0, _ => none
  | bound + 1, cs => do
    let (e, rest) ← readLoose bound cs
    match rest.dropPrefix? [',', ' '] with
    | some rest =>
      let (es, rest) ← readSequence bound rest
      return (e :: es, rest)
    | none => return ([e], ← rest.dropPrefix? [']'])

end

end

/-- With any bound that is great enough the reader gives this. -/
def Gives {α : Type} (read : ℕ → Option α) (a : α) : Prop :=
  ∃ least, ∀ bound, least ≤ bound → read bound = some a

namespace Gives

variable {α β γ : Type} {read : ℕ → Option α} {first : ℕ → Option β} {second : ℕ → Option γ}
  {a a' : α} {b : β} {c : γ}

lemma unique (h : Gives read a) (h' : Gives read a') : a = a' := by
  obtain ⟨least, h⟩ := h
  obtain ⟨least', h'⟩ := h'
  have hboth := (h _ (Nat.le_max_left least least')).symm.trans (h' _ (Nat.le_max_right _ _))
  exact Option.some.inj hboth

/-- A reader that asks two others gives a result where they give theirs. -/
lemma next₂ (h : Gives first b) (h' : Gives second c)
    (hread : ∀ bound, first bound = some b → second bound = some c → read (bound + 1) = some a) :
    Gives read a := by
  obtain ⟨least, h⟩ := h
  obtain ⟨least', h'⟩ := h'
  refine ⟨max least least' + 1, fun bound hbound => ?_⟩
  obtain ⟨bound, rfl⟩ := Nat.exists_eq_add_of_le' (Nat.zero_lt_of_lt hbound)
  have hmax := Nat.le_of_succ_le_succ hbound
  exact hread bound (h bound (le_of_max_le_left hmax)) (h' bound (le_of_max_le_right hmax))

lemma next (h : Gives first b) (hread : ∀ bound, first bound = some b → read (bound + 1) = some a) :
    Gives read a :=
  next₂ h h fun bound hbound _ => hread bound hbound

end Gives

/-- The marks of the grammar. -/
def delimiters : List Char := ['(', ')', '[', ']', '{', ',', ';', ' ']

lemma isIdentifierPart_delimiter {c : Char} (hc : c ∈ delimiters) :
    isIdentifierPart c = false := by
  have hall : delimiters.all (!isIdentifierPart ·) := by decide +kernel
  simpa using List.all_eq_true.mp hall c hc

/-- No name goes on here. -/
def Apart (rest : List Char) : Prop := ∀ c ∈ rest.head?, isIdentifierPart c = false

lemma apart_cons {c : Char} (hc : c ∈ delimiters) (rest : List Char) : Apart (c :: rest) := by
  rintro _ ⟨⟩
  exact isIdentifierPart_delimiter hc

/-- Neither a name nor brackets nor a bar go on here. -/
def Closed (rest : List Char) : Prop := ∀ c ∈ rest.head?, c ∈ [')', ']', ',', ';']

lemma closed_cons {c : Char} (hc : c ∈ [')', ']', ',', ';']) (rest : List Char) :
    Closed (c :: rest) := by
  rintro _ ⟨⟩
  exact hc

variable {rest cs ks : List Char} {e key value : TypeExpr}

lemma Closed.apart (h : Closed rest) : Apart rest := fun c hc => by
  have hsub : [')', ']', ',', ';'] ⊆ delimiters := by decide
  exact isIdentifierPart_delimiter (hsub (h c hc))

lemma Closed.dropPrefix?_bar (h : Closed rest) : rest.dropPrefix? bar = none := by
  cases rest with
  | nil => rfl
  | cons c rest =>
    have hc : c ≠ ' ' := by
      rintro rfl
      simpa using h ' ' rfl
    simp [List.dropPrefix?, bar, hc]

lemma readBrackets_of_head (h : '[' ∉ rest.head?) : readBrackets e rest = (e, rest) := by
  unfold readBrackets
  split
  · exact absurd rfl h
  · rfl

lemma Closed.readBrackets (h : Closed rest) : e.readBrackets rest = (e, rest) :=
  readBrackets_of_head fun hc => by simpa using h '[' hc

lemma readName_apart {name : String} (h : isIdentifier name) (hrest : Apart rest) :
    readName (name.toList ++ rest) = (name, rest) := by
  cases rest with
  | nil =>
    have hparts := isIdentifierPart_of_isIdentifier h
    rw [readName, List.takeWhile_append_of_pos hparts, List.dropWhile_append_of_pos hparts]
    simp
  | cons c rest => exact readName_append h (hrest c rfl) rest

/-- The reader finds a sentence in front of what may stand behind it. -/
def Found : Binding → List Char → TypeExpr → Prop
  | .tight, cs, e => ∀ rest, Apart rest →
      Gives (readTight · (cs ++ rest)) (readBrackets e rest)
  | .loose, cs, e => (∀ rest, Closed rest → Gives (readLoose · (cs ++ rest)) (e, rest)) ∧
      ∀ ds f rest, Gives (readLoose · ds) (f, rest) →
        Gives (readLoose · (cs ++ (bar ++ ds))) (.union (e.unionMembers ++ f.unionMembers), rest)

namespace Found

lemma atom (h : ∀ rest, Apart rest → Gives (readAtom · (cs ++ rest)) (e, rest)) :
    Found .tight cs e := fun rest hrest => by
  refine (h rest hrest).next fun bound hbound => ?_
  simp only [readTight, hbound, Option.bind_eq_bind, Option.bind_some]
  rfl

lemma ident {name : String} (h : isIdentifier name) : Found .tight name.toList (.ident name) := by
  refine atom fun rest hrest => ⟨1, fun bound hbound => ?_⟩
  obtain ⟨bound, rfl⟩ := Nat.exists_eq_add_of_le' hbound
  have hname := readName_apart h hrest
  cases heq : name.toList with
  | nil => simp [isIdentifier, heq] at h
  | cons c cs =>
    have hpart : isIdentifierPart c := isIdentifierPart_of_isIdentifier h c (by simp [heq])
    have hc (d : Char) (hd : d ∈ delimiters) : c ≠ d := by
      rintro rfl
      rw [isIdentifierPart_delimiter hd] at hpart
      cases hpart
    have hround := hc '(' (by decide)
    have hsquare := hc '[' (by decide)
    have hcurly := hc '{' (by decide)
    rw [heq, List.cons_append] at hname
    change readAtom (bound + 1) (c :: (cs ++ rest)) = _
    rw [readAtom.eq_6 _ _ (by simp [hround]) (by simp [hsquare]) (by simp [hsquare])
      (by simp [hcurly]), hname]
    rfl

lemma array (h : Found .tight cs e) : Found .tight (cs ++ ['[', ']']) (.array e) := by
  intro rest _
  have hbrackets := h ('[' :: ']' :: rest) (apart_cons (by decide) _)
  rw [readBrackets] at hbrackets
  simpa using hbrackets

lemma group (h : Found .loose cs e) : Found .tight ('(' :: (cs ++ [')', '[', ']'])) (.array e) := by
  refine atom fun rest _ => ?_
  refine (h.1 (')' :: '[' :: ']' :: rest) (closed_cons (by decide) _)).next fun bound hbound => ?_
  have hdrop : (')' :: '[' :: ']' :: rest).dropPrefix? [')', '[', ']'] = some rest :=
    dropPrefix?_append [')', '[', ']'] rest
  simp only [List.cons_append, List.append_assoc, List.nil_append, readAtom, hbound, hdrop,
    Option.bind_eq_bind, Option.bind_some]
  rfl

/-- Members between commas are read one after the other. -/
lemma sequence {parts : List (List Char × TypeExpr)} (hne : parts ≠ [])
    (h : ∀ part ∈ parts, Found .loose part.1 part.2) (rest : List Char) :
    Gives (readSequence · (joinChars [',', ' '] (parts.map (·.1)) ++ ']' :: rest))
      (parts.map (·.2), rest) := by
  induction parts with
  | nil => exact absurd rfl hne
  | cons part parts ih =>
    obtain ⟨hpart, hparts⟩ := List.forall_mem_cons.mp h
    cases parts with
    | nil =>
      refine (hpart.1 (']' :: rest) (closed_cons (by decide) _)).next fun bound hbound => ?_
      have hdrop : (']' :: rest).dropPrefix? [']'] = some rest := dropPrefix?_append [']'] rest
      have hnot : (']' :: rest).dropPrefix? [',', ' '] = none := by simp [List.dropPrefix?]
      simp only [List.map_cons, List.map_nil, joinChars, readSequence, hbound, hdrop, hnot,
        Option.bind_eq_bind, Option.bind_some, Option.pure_def]
    | cons next parts =>
      let later := joinChars [',', ' '] ((next :: parts).map (·.1)) ++ ']' :: rest
      have hpart := hpart.1 (',' :: ' ' :: later) (closed_cons (by decide) _)
      have hdrop : (',' :: ' ' :: later).dropPrefix? [',', ' '] = some later :=
        dropPrefix?_append [',', ' '] later
      have htext : joinChars [',', ' '] ((part :: next :: parts).map (·.1)) ++ ']' :: rest =
          part.1 ++ ',' :: ' ' :: later := by
        simp [joinChars, later]
      simp only [htext]
      refine hpart.next₂ (ih (List.cons_ne_nil _ _) hparts) fun bound hbound hbound' => ?_
      have hbound' : readSequence bound later = _ := hbound'
      simp only [readSequence, hbound, hdrop, hbound', Option.bind_eq_bind, Option.bind_some]
      rfl

lemma tuple {parts : List (List Char × TypeExpr)}
    (hhead : ∀ part ∈ parts, part.1 ≠ [] ∧ ']' ∉ part.1.head?)
    (h : ∀ part ∈ parts, Found .loose part.1 part.2) :
    Found .tight ('[' :: (joinChars [',', ' '] (parts.map (·.1)) ++ [']']))
      (.tuple (parts.map (·.2))) := by
  refine atom fun rest _ => ?_
  cases parts with
  | nil =>
    refine ⟨1, fun bound hbound => ?_⟩
    obtain ⟨bound, rfl⟩ := Nat.exists_eq_add_of_le' hbound
    rfl
  | cons part parts =>
    obtain ⟨hne, hpart⟩ := hhead part List.mem_cons_self
    refine (sequence (List.cons_ne_nil _ _) h rest).next fun bound hbound => ?_
    obtain ⟨c, cs, hcs⟩ := List.exists_cons_of_ne_nil hne
    rw [hcs] at hpart
    have hc : c ≠ ']' := fun heq => hpart (by simp [heq])
    obtain ⟨later, hlater⟩ : ∃ later, joinChars [',', ' '] ((part :: parts).map (·.1)) =
        c :: later := by
      cases parts with
      | nil => exact ⟨cs, hcs⟩
      | cons next parts => exact ⟨_, by simp only [List.map_cons, joinChars, hcs]; rfl⟩
    rw [hlater, List.cons_append] at hbound
    simp only [hlater, List.cons_append, List.append_assoc, List.nil_append]
    rw [readAtom.eq_4 _ _ (by simp [hc]), hbound]
    rfl

lemma index (hkey : Found .loose ks key) (h : Found .loose cs value) :
    Found .tight ('{' :: (" [key: ".toList ++ (ks ++ ("]: ".toList ++ (cs ++ [';', ' ', '}'])))))
      (.dictionary key value) := by
  refine atom fun rest _ => ?_
  refine (hkey.1 ("]: ".toList ++ (cs ++ (';' :: ' ' :: '}' :: rest)))
    (closed_cons (by decide) _)).next₂ (h.1 (';' :: ' ' :: '}' :: rest)
      (closed_cons (by decide) _)) fun bound hbound hbound' => ?_
  have hdrop : (';' :: ' ' :: '}' :: rest).dropPrefix? [';', ' ', '}'] = some rest :=
    dropPrefix?_append [';', ' ', '}'] rest
  simp only [List.cons_append, List.append_assoc, List.nil_append, readAtom, dropPrefix?_append,
    hbound, hbound', hdrop, Option.bind_eq_bind, Option.bind_some, Option.pure_def]

lemma mapped (hkey : Found .loose ks key) (h : Found .loose cs value) :
    Found .tight ('{' :: (" [key in ".toList ++ (ks ++ ("]?: ".toList ++
      (cs ++ [';', ' ', '}']))))) (.dictionary key value) := by
  refine atom fun rest _ => ?_
  refine (hkey.1 ("]?: ".toList ++ (cs ++ (';' :: ' ' :: '}' :: rest)))
    (closed_cons (by decide) _)).next₂ (h.1 (';' :: ' ' :: '}' :: rest)
      (closed_cons (by decide) _)) fun bound hbound hbound' => ?_
  have hdrop : (';' :: ' ' :: '}' :: rest).dropPrefix? [';', ' ', '}'] = some rest :=
    dropPrefix?_append [';', ' ', '}'] rest
  have hnot (cs : List Char) : (" [key in ".toList ++ cs).dropPrefix? " [key: ".toList = none := rfl
  simp only [List.cons_append, List.append_assoc, List.nil_append, readAtom, dropPrefix?_append,
    hnot, hbound, hbound', hdrop, Option.bind_eq_bind, Option.bind_some, Option.map_some]
  rfl

lemma single (h : Found .tight cs e) : Found .loose cs e := by
  constructor
  · intro rest hrest
    refine (h rest hrest.apart).next fun bound hbound => ?_
    simp only [readLoose, hbound, hrest.readBrackets, hrest.dropPrefix?_bar, Option.bind_eq_bind,
      Option.bind_some]
    rfl
  · intro ds f rest hds
    have hbar : readBrackets e (bar ++ ds) = (e, bar ++ ds) := readBrackets_of_head (by simp [bar])
    refine (h (bar ++ ds) (apart_cons (by decide) _)).next₂ hds fun bound hbound hbound' => ?_
    simp only [readLoose, hbound, hbar, hbound', dropPrefix?_append, Option.bind_eq_bind,
      Option.bind_some]
    rfl

lemma union {ds : List Char} {f : TypeExpr} (h : Found .loose cs e) (h' : Found .loose ds f) :
    Found .loose (cs ++ (bar ++ ds)) (.union (e.unionMembers ++ f.unionMembers)) := by
  constructor
  · intro rest hrest
    simpa only [List.append_assoc] using h.2 _ _ _ (h'.1 rest hrest)
  · intro ds' f' rest hds
    simpa only [List.append_assoc, unionMembers] using h.2 _ _ _ (h'.2 _ _ _ hds)

end Found

namespace Sentence

/-- No sentence is empty or starts with a closing bracket. -/
lemma head {binding : Binding} (h : Sentence binding cs e) : cs ≠ [] ∧ ']' ∉ cs.head? := by
  induction h with
  | @ident name h =>
    constructor
    · intro hnil
      simp [isIdentifier, hnil] at h
    · intro hc
      have hpart := isIdentifierPart_of_isIdentifier h ']' (List.mem_of_mem_head? hc)
      rw [isIdentifierPart_delimiter (by decide)] at hpart
      cases hpart
  | array _ ih => exact ⟨by simp, by rw [List.head?_append_of_ne_nil _ ih.1]; exact ih.2⟩
  | union _ _ ih _ => exact ⟨by simp [bar], by rw [List.head?_append_of_ne_nil _ ih.1]; exact ih.2⟩
  | single _ ih => exact ih
  | group | tuple | index | mapped => simp

lemma found {binding : Binding} (h : Sentence binding cs e) : Found binding cs e := by
  induction h with
  | ident h => exact .ident h
  | array _ ih => exact ih.array
  | group _ ih => exact ih.group
  | tuple h ih => exact .tuple (fun part hpart => (h part hpart).head) ih
  | index _ _ _ ihkey ih => exact ihkey.index ih
  | mapped _ _ ihkey ih => exact ihkey.mapped ih
  | single _ ih => exact ih.single
  | union _ _ ih ih' => exact ih.union ih'

/-- A text is a sentence for one expression at most. -/
lemma unique {f : TypeExpr} (h : Sentence .loose cs e) (h' : Sentence .loose cs f) : e = f := by
  have hread := h.found.1 [] (by simp [Closed])
  have hread' := h'.found.1 [] (by simp [Closed])
  exact (Prod.mk.inj (hread.unique hread')).1

end Sentence

/-- The identifiers of the expression are identifiers, and its unions are flat. -/
inductive Regular : TypeExpr → Prop
  | ident {name : String} (h : isIdentifier name) : Regular (.ident name)
  | array {e : TypeExpr} (h : Regular e) : Regular (.array e)
  | tuple {es : List TypeExpr} (h : ∀ e ∈ es, Regular e) : Regular (.tuple es)
  | dictionary {key value : TypeExpr} (hkey : Regular key) (hvalue : Regular value) :
      Regular (.dictionary key value)
  | union {es : List TypeExpr} (h : ∀ e ∈ es, Regular e) (hmany : 1 < es.length)
      (hflat : ∀ e ∈ es, e.unionMembers = [e]) : Regular (.union es)

lemma charsBetween_eq (separator : List Char) (es : List TypeExpr) :
    charsBetween separator es = joinChars separator (es.map chars) := by
  induction es with
  | nil => rfl
  | cons e rest ih =>
    cases rest with
    | nil => rfl
    | cons next rest => simp [charsBetween, ih, joinChars]

/-- Members that are no unions themselves make a sentence with bars between them. -/
lemma Sentence.members {es : List TypeExpr} (hne : es ≠ [])
    (h : ∀ e ∈ es, Sentence .tight e.chars e) (hflat : ∀ e ∈ es, e.unionMembers = [e]) :
    ∃ f, Sentence .loose (joinChars bar (es.map chars)) f ∧ f.unionMembers = es ∧
      (1 < es.length → f = .union es) := by
  induction es with
  | nil => exact absurd rfl hne
  | cons e es ih =>
    obtain ⟨he, hes⟩ := List.forall_mem_cons.mp h
    obtain ⟨hmember, hmembers⟩ := List.forall_mem_cons.mp hflat
    cases es with
    | nil => exact ⟨e, he.single, hmember, by simp⟩
    | cons next es =>
      obtain ⟨f, hf, hfmembers, _⟩ := ih (List.cons_ne_nil _ _) hes hmembers
      have hunion := he.single.union hf
      rw [hmember, hfmembers, List.singleton_append] at hunion
      exact ⟨_, by simpa [joinChars] using hunion, rfl, fun _ => rfl⟩

namespace Regular

/-- The text of an expression is a sentence for it, and a tight one unless it is a union. -/
lemma sentence (h : e.Regular) :
    (e.unionMembers = [e] → Sentence .tight e.chars e) ∧ Sentence .loose e.chars e := by
  suffices htight : ∀ {e : TypeExpr}, Sentence .tight e.chars e →
      (e.unionMembers = [e] → Sentence .tight e.chars e) ∧ Sentence .loose e.chars e by
    induction h with
    | ident h => exact htight (.ident h)
    | @array e h ih =>
      refine htight ?_
      rw [chars]
      cases hunion : e.hasUnion with
      | true => exact .group ih.2
      | false =>
        refine .array (ih.1 ?_)
        cases e with
        | union es => cases hunion
        | ident | array | tuple | dictionary => rfl
    | @tuple es h ih =>
      refine htight ?_
      have hparts : ∀ part ∈ es.map fun e => (e.chars, e), Sentence .loose part.1 part.2 := by
        intro part hpart
        obtain ⟨e, he, rfl⟩ := List.mem_map.mp hpart
        exact (ih e he).2
      simpa [chars, charsBetween_eq, Function.comp_def] using Sentence.tuple hparts
    | @dictionary key value _ _ ihkey ihvalue =>
      refine htight ?_
      cases hindex : key.isIndexKey with
      | true => simpa [chars, hindex] using Sentence.index hindex ihkey.2 ihvalue.2
      | false => simpa [chars, hindex] using Sentence.mapped ihkey.2 ihvalue.2
    | @union es h hmany hflat ih =>
      constructor
      · intro hself
        rw [unionMembers] at hself
        rw [hself] at hmany
        exact absurd hmany (by simp)
      · obtain ⟨f, hf, _, heq⟩ := Sentence.members (List.ne_nil_of_length_pos (by omega))
          (fun e he => (ih e he).1 (hflat e he)) hflat
        rw [chars, charsBetween_eq, ← heq hmany]
        exact hf
  exact fun hsentence => ⟨fun _ => hsentence, hsentence.single⟩

/-- Every expression has members, and they are regular and no unions themselves. -/
lemma members (h : e.Regular) :
    e.unionMembers ≠ [] ∧
      ∀ member ∈ e.unionMembers, member.Regular ∧ member.unionMembers = [member] := by
  cases h with
  | @union es hes hmany hflat =>
    exact ⟨List.ne_nil_of_length_pos (by rw [unionMembers]; omega),
      fun member hmember => ⟨hes member hmember, hflat member hmember⟩⟩
  | ident h => exact ⟨by simp [unionMembers], by simpa [unionMembers] using .ident h⟩
  | array h => exact ⟨by simp [unionMembers], by simpa [unionMembers] using .array h⟩
  | tuple h => exact ⟨by simp [unionMembers], by simpa [unionMembers] using .tuple h⟩
  | dictionary hkey hvalue =>
    exact ⟨by simp [unionMembers], by simpa [unionMembers] using .dictionary hkey hvalue⟩

lemma join {es : List TypeExpr} (h : ∀ e ∈ es, e.Regular) (hne : es ≠ []) : (join es).Regular := by
  have hmembers : ∀ member ∈ es.flatMap unionMembers,
      member.Regular ∧ member.unionMembers = [member] := by
    intro member hmember
    obtain ⟨e, he, hmember⟩ := List.mem_flatMap.mp hmember
    exact (h e he).members.2 member hmember
  have hsome : es.flatMap unionMembers ≠ [] := by
    obtain ⟨e, es, rfl⟩ := List.exists_cons_of_ne_nil hne
    have hfirst := (h e List.mem_cons_self).members.1
    simp [hfirst]
  unfold TypeExpr.join
  split
  · rename_i e heq
    exact (hmembers e (heq ▸ List.mem_singleton_self e)).1
  · rename_i hmany
    refine .union (fun e he => (hmembers e he).1) ?_ fun e he => (hmembers e he).2
    rcases hlist : es.flatMap unionMembers with _ | ⟨first, _ | _⟩
    · exact absurd hlist hsome
    · exact absurd hlist (hmany first)
    · simp

/-- The text of an expression is a sentence for this expression and for no other one. -/
lemma sentence_iff (h : e.Regular) {f : TypeExpr} :
    Sentence .loose e.text.toList f ↔ f = e := by
  rw [text, String.toList_ofList]
  refine ⟨fun hf => hf.unique h.sentence.2, ?_⟩
  rintro rfl
  exact h.sentence.2

end Regular

end TypeExpr

end SchemaTypes
