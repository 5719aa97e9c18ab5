import RepoGraph.Command.Arguments
import RepoGraph.Proofs.Text.Blank
import RepoGraph.Repository.Url

/-!
# Command lines of words

An argument that does not begin with a hyphen is a word (`markOf_word`), so that a line of such
arguments holds no option, and is read from its first argument on as what stands between the options
(`parse_words`). A line is read as the command whose name it begins with
(`Arguments.parse_of_front`), and so the line of a command with one word as just that command
(`Arguments.parse_pair`). The URL of a repository begins with its scheme, and so is a word
(`Repository.isWord_of_ofUrl?`).
-/

namespace RepoGraph

open RepoGraph.Text

namespace Command

/-- The argument does not begin with a hyphen. -/
def IsWord (arg : String) : Prop := arg.toList.head? ≠ some '-'

instance (arg : String) : Decidable (IsWord arg) := inferInstanceAs (Decidable (_ ≠ _))

variable {rules : List OptionRule} {g : Grammar} {args : List String}

/-- An argument that does not begin with a hyphen is a word in any grammar. -/
theorem markOf_word {arg : String} (h : IsWord arg) : markOf rules arg = .ok .word := by
  unfold markOf
  split
  · rename_i heq
    rw [IsWord, heq] at h
    exact absurd rfl h
  · rfl

/-- Each argument of a line that does not end the options is marked by itself. -/
theorem marksOf_cons {arg : String} {m : Mark} {ms : List (String × Mark)} (hdivider : arg ≠ "--")
    (hmark : markOf rules arg = .ok m) (hmarks : marksOf rules args = .ok ms) :
    marksOf rules (arg :: args) = .ok ((arg, m) :: ms) := by
  rw [marksOf, if_neg hdivider, hmark, hmarks]
  rfl

/-- An argument that does not begin with a hyphen is a word in any line. -/
theorem marksOf_cons_word {arg : String} {ms : List (String × Mark)} (harg : IsWord arg)
    (hmarks : marksOf rules args = .ok ms) :
    marksOf rules (arg :: args) = .ok ((arg, .word) :: ms) := by
  refine marksOf_cons ?_ (markOf_word harg) hmarks
  rintro rfl
  exact absurd rfl harg

/-- Arguments that do not begin with a hyphen are words in any grammar. -/
theorem marksOf_words (h : ∀ arg ∈ args, IsWord arg) :
    marksOf rules args = .ok (args.map fun arg => (arg, .word)) := by
  induction args with
  | nil => rfl
  | cons arg args ih =>
    obtain ⟨harg, hargs⟩ := List.forall_mem_cons.mp h
    exact marksOf_cons_word harg (ih hargs)

/-- Where no option stands, a line is read as what stands between the options. -/
theorem parse_words {arg : String} (h : ∀ a ∈ arg :: args, IsWord a) :
    g.parse (arg :: args) =
      .ok (finish g.operand ((arg :: args).map fun a => (a, .word)) ⟨.empty, [], false⟩) := by
  have hnone : (args.map fun a => (a, Mark.word)).any (fun b => b.2.isOption) = false := by
    rw [List.any_map]
    exact List.any_eq_false.mpr fun a _ => Bool.false_ne_true
  rw [Grammar.parse, marksOf_words h]
  show readMarks g ((arg, Mark.word) :: args.map fun a => (a, Mark.word)) _ = _
  rw [readMarks, hnone]
  rfl

/-- The line of a command is the command with all that follows it. -/
theorem parse_front {name : String} (h : ∀ a ∈ name :: args, IsWord a) :
    frontGrammar.parse (name :: args) = .ok ⟨.empty, name :: args, false⟩ := by
  have hnames : ((name :: args).map fun a => (a, Mark.word)).map Prod.fst = name :: args := by
    rw [List.map_map]
    exact List.map_id' _
  -- There is a word in the line, which its name is.
  rw [parse_words h]
  show Except.ok (Parsed.mk .empty (((name :: args).map fun a => (a, Mark.word)).map Prod.fst)
    false) = _
  rw [hnames]

/-- A line of one word is read as that word. -/
theorem parse_operand (hoperand : g.operand = .word) {word : String} (h : IsWord word) :
    g.parse [word] = .ok ⟨.empty, [word], false⟩ := by
  rw [parse_words (List.forall_mem_singleton.mpr h), hoperand]
  rfl

end Command

open Command

/-- A line is read as a command if it begins with its name, and the rest of it is read as what the
command needs. -/
theorem Arguments.parse_of_front {words : List String} {name : String} {rest : List String}
    {g : Grammar} {p : Parsed} {c : Command}
    (hfront : frontGrammar.parse words = .ok ⟨.empty, name :: rest, false⟩)
    (hgrammar : grammar? name = some g) (hrest : g.parse rest = .ok p) (hexcess : p.excess = false)
    (hcommand : ofParsed? name p = some c) : Arguments.parse words = .ok ⟨none, false, c⟩ := by
  unfold Arguments.parse
  rw [hfront]
  dsimp only [Bind.bind, Except.bind]
  rw [hgrammar]
  dsimp only
  rw [hrest]
  dsimp only
  rw [hcommand, hexcess]
  rfl

/-- The name of a command that takes one word, with a word after it, is read as that command. -/
theorem Arguments.parse_pair {name word : String} {g : Grammar} {c : Command} (hname : IsWord name)
    (hword : IsWord word) (hgrammar : grammar? name = some g) (hoperand : g.operand = .word)
    (hcommand : ofParsed? name ⟨.empty, [word], false⟩ = some c) :
    Arguments.parse [name, word] = .ok ⟨none, false, c⟩ := by
  have hfront : frontGrammar.parse [name, word] = .ok ⟨.empty, [name, word], false⟩ :=
    parse_front (List.forall_mem_cons.mpr ⟨hname, List.forall_mem_singleton.mpr hword⟩)
  exact Arguments.parse_of_front hfront hgrammar (parse_operand hoperand hword) rfl hcommand

/-- A text without letters at its front has no scheme. -/
theorem Url.scheme_takeScheme_cons {c : Char} (hc : c.isAlpha = false) (s : List Char) :
    (takeScheme (c :: s)).1 = [] := by
  unfold takeScheme
  split
  · rename_i heq _
    obtain ⟨rfl, -⟩ := List.cons.inj heq
    rw [hc]
    rfl
  · rfl

/-- The URL of a repository does not begin with a hyphen, since no scheme does. -/
theorem Repository.isWord_of_ofUrl? {url : String} {r : Repository}
    (h : Repository.ofUrl? url = some r) : IsWord url := by
  intro hhead
  obtain ⟨cs, hcs⟩ := List.head?_eq_some_iff.mp hhead
  have htrim : trim url.toList = '-' :: trimRight cs := by rw [hcs, trim_cons (by decide)]
  have hkept : (('-' :: trimRight cs).dropWhile (·.toNat ≤ 0x20)).filter (!Url.isDropped ·) =
      '-' :: (trimRight cs).filter (!Url.isDropped ·) := rfl
  obtain ⟨u, hu, hrepository⟩ := Option.bind_eq_some_iff.mp h
  have hscheme : u.scheme = [] := by
    rw [htrim, Url.parse?, hkept] at hu
    dsimp only at hu
    split at hu
    · obtain rfl := Option.some.inj hu
      exact Url.scheme_takeScheme_cons rfl _
    · cases hu
  rw [hscheme] at hrepository
  cases hrepository

end RepoGraph
