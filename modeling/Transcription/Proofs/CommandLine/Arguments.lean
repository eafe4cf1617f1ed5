import Transcription.CommandLine.Options

/-!
# What the arguments give

The arguments of a command line give items: a currency, flags and a file. An item is written in one
of a few ways, and the items may come in any order. Arguments ask for a run just when they can be
read as items that are accepted together, and then the run has these items as its options and no
other ones.

An argument does the same whatever was read before it, but that an item is refused when something
was given for the same purpose already. `Options.exists_isArgument` says once which forms an
argument can have and what each does; what is known of a whole line follows from it.
-/

namespace Transcription.CommandLine

/-- What can be given on a command line. -/
inductive Item where
  | currency (symbol : String)
  | auto
  | naive
  | detailed
  | file (name : String)
  deriving DecidableEq

/-- An argument that does not look like an option. It may be a single dash. -/
def IsPlain (arg : String) : Prop :=
  arg.toList.head? = some '-' → arg = "-"

instance : DecidablePred IsPlain :=
  fun arg => inferInstanceAs (Decidable (arg.toList.head? = some '-' → arg = "-"))

/-- An argument gives an item. -/
inductive Item.IsWritten : Item → String → Prop
  | auto : IsWritten .auto "--auto"
  | naive : IsWritten .naive "--naive"
  | detailed : IsWritten .detailed "--detailed"
  /-- A currency behind the name of its option. It may be empty. -/
  | currencyAfterName (symbol : String) : IsWritten (.currency symbol) ("--currency=" ++ symbol)
  | currencyAfterLetter (symbol : String) : IsWritten (.currency symbol) ("-c=" ++ symbol)
  /-- A currency may follow the letter of its option at once. -/
  | currencyAttached {symbol : String} (hne : symbol ≠ "")
      (hsign : symbol.toList.head? ≠ some '=') : IsWritten (.currency symbol) ("-c" ++ symbol)
  | file {name : String} (hne : name ≠ "") (hplain : IsPlain name) : IsWritten (.file name) name

/-- The arguments of a command line give items, one after another. Behind a double dash all of them
are files. -/
inductive IsLine : List Item → List String → Prop
  | nil : IsLine [] []
  | item {i : Item} {items : List Item} {arg : String} {args : List String} (h : i.IsWritten arg)
      (rest : IsLine items args) : IsLine (i :: items) (arg :: args)
  | currency {items : List Item} {arg symbol : String} {args : List String}
      (h : arg = "-c" ∨ arg = "--currency") (hplain : IsPlain symbol) (rest : IsLine items args) :
      IsLine (.currency symbol :: items) (arg :: symbol :: args)
  | files {names : List String} (h : "" ∉ names) : IsLine (names.map .file) ("--" :: names)

/-- What an item is for. -/
def Item.purpose : Item → String
  | .currency _ => "currency"
  | .auto => "auto"
  | .naive => "naive"
  | .detailed => "detailed"
  | .file _ => "file"

/-- No two items have the same purpose, and a currency excludes the automatic one. -/
def IsAccepted (items : List Item) : Prop :=
  (items.map Item.purpose).Nodup ∧ ∀ symbol, .currency symbol ∈ items → .auto ∉ items

theorem Item.IsWritten.ne_file_empty {i : Item} {arg : String} (h : i.IsWritten arg) :
    i ≠ .file "" := by
  rintro rfl
  cases h with
  | file hne => exact hne rfl

/-- A file that is given has a name. -/
theorem IsLine.file_empty_not_mem {items : List Item} {args : List String} (h : IsLine items args) :
    .file "" ∉ items := by
  induction h with
  | nil => exact List.not_mem_nil
  | item hwritten _ ih =>
      rw [List.mem_cons, not_or]
      exact ⟨hwritten.ne_file_empty.symm, ih⟩
  | currency _ _ _ ih => simpa using ih
  | files hnames => simpa using hnames

namespace Options

/-- An item has been given. -/
def Gives (o : Options) : Item → Prop
  | .currency symbol => o.currency = some symbol
  | .auto => o.auto = true
  | .naive => o.naive = true
  | .detailed => o.detailed = true
  | .file name => o.file = some ⟨name⟩

/-- Take what is given. Everything can be given once. -/
def take? (o : Options) : Item → Option Options
  | .currency symbol => o.withCurrency? symbol.toList
  | .auto => flag? o.auto { o with auto := true }
  | .naive => flag? o.naive { o with naive := true }
  | .detailed => flag? o.detailed { o with detailed := true }
  | .file name => o.withFile? name.toList

variable {o next last : Options} {i : Item} {items : List Item} {args : List String}

/-! ### Single options -/

theorem flag?_eq_some_iff {given : Bool} :
    flag? given next = some last ↔ given = false ∧ next = last := by
  cases given <;> simp [flag?]

theorem withCurrency?_eq_some_iff {symbol : List Char} :
    o.withCurrency? symbol = some next ↔
      o.currency = .none ∧ { o with currency := some (String.ofList symbol) } = next := by
  cases hgiven : o.currency <;> simp [withCurrency?, hgiven]

theorem withFile?_eq_some_iff {name : List Char} :
    o.withFile? name = some next ↔
      o.file = .none ∧ name ≠ [] ∧ { o with file := some ⟨String.ofList name⟩ } = next := by
  cases hgiven : o.file <;> cases name <;> simp [withFile?, hgiven]

theorem isOptionLike_eq_false_iff {arg : String} :
    isOptionLike arg.toList = false ↔ IsPlain arg := by
  have hdash : arg.toList = ['-'] ↔ arg = "-" := @String.toList_inj arg "-"
  rw [isOptionLike, IsPlain, ← hdash]
  by_cases hhead : arg.toList.head? = some '-' <;> simp [hhead]

theorem eq_of_gives {other : Options} (h : ∀ i, o.Gives i ↔ other.Gives i) : o = other := by
  obtain ⟨currency, auto, naive, detailed, file⟩ := o
  obtain ⟨currency', auto', naive', detailed', file'⟩ := other
  have hcurrency : currency = currency' := Option.ext fun symbol => h (.currency symbol)
  have hauto : auto = auto' := Bool.eq_iff_iff.mpr (h .auto)
  have hnaive : naive = naive' := Bool.eq_iff_iff.mpr (h .naive)
  have hdetailed : detailed = detailed' := Bool.eq_iff_iff.mpr (h .detailed)
  have hfile : file = file' := Option.ext fun p => h (.file p.text)
  rw [hcurrency, hauto, hnaive, hdetailed, hfile]

theorem not_gives_none (i : Item) : ¬ Options.none.Gives i := by
  cases i <;> simp [none, Gives]

/-- Options cannot be carried out with a currency and the automatic one. -/
theorem finish_eq_run_iff :
    o.finish = .run last ↔
      o = last ∧ ∀ symbol, last.Gives (.currency symbol) → ¬ last.Gives .auto := by
  have hconflict : (o.auto && o.currency.isSome) = false ↔
      ∀ symbol, o.Gives (.currency symbol) → ¬ o.Gives .auto := by
    cases hcurrency : o.currency <;> simp [Gives, hcurrency]
  rw [finish]
  by_cases hboth : (o.auto && o.currency.isSome) = true
  · rw [if_pos hboth]
    constructor
    · intro h
      cases h
    · rintro ⟨rfl, hnone⟩
      exact absurd hboth (ne_true_of_eq_false (hconflict.mpr hnone))
  · rw [if_neg hboth]
    constructor
    · intro h
      cases h
      exact ⟨rfl, hconflict.mp (eq_false_of_ne_true hboth)⟩
    · rintro ⟨rfl, -⟩
      rfl

theorem take?_currency (o : Options) (symbol : List Char) :
    o.take? (.currency (String.ofList symbol)) = o.withCurrency? symbol := by
  rw [take?, String.toList_ofList]

/-! ### The forms of an argument -/

/-- An argument by its first characters and the other ones. -/
theorem eq_append_ofList {arg first : String} {cs : List Char}
    (h : arg.toList = first.toList ++ cs) : arg = first ++ String.ofList cs := by
  rw [← String.toList_inj, h, String.toList_append, String.toList_ofList]

/-- The forms of an argument, each with what it does to the options before it. -/
inductive IsArgument : String → (Options → Effect) → Prop
  | item {i : Item} {arg : String} (h : i.IsWritten arg) :
      IsArgument arg fun o => .ofOption (o.take? i)
  | currency {arg : String} (h : arg = "-c" ∨ arg = "--currency") :
      IsArgument arg fun _ => .awaitCurrency
  | endOfOptions : IsArgument "--" fun _ => .endOfOptions
  | version {arg : String} (h : arg = "--version" ∨ ∃ more, arg = "-V" ++ more) :
      IsArgument arg fun _ => .version
  | help {arg : String} (h : arg = "--help" ∨ ∃ more, arg = "-h" ++ more) :
      IsArgument arg fun _ => .help
  | misused {arg : String} : IsArgument arg fun _ => .misused

/-- The forms of a long option without a value. -/
theorem exists_named_none (name : String) :
    ∃ f, IsArgument ("--" ++ name) f ∧ ∀ o : Options, o.named name .none = f o := by
  by_cases hcurrency : name = "currency"
  · subst hcurrency
    exact ⟨_, .currency (.inr rfl), fun o => rfl⟩
  by_cases hauto : name = "auto"
  · subst hauto
    exact ⟨_, .item .auto, fun o => rfl⟩
  by_cases hnaive : name = "naive"
  · subst hnaive
    exact ⟨_, .item .naive, fun o => rfl⟩
  by_cases hdetailed : name = "detailed"
  · subst hdetailed
    exact ⟨_, .item .detailed, fun o => rfl⟩
  by_cases hversion : name = "version"
  · subst hversion
    exact ⟨_, .version (.inl rfl), fun o => rfl⟩
  by_cases hhelp : name = "help"
  · subst hhelp
    exact ⟨_, .help (.inl rfl), fun o => rfl⟩
  · refine ⟨_, .misused, fun o => ?_⟩
    simp [named, hcurrency, hauto, hnaive, hdetailed, hversion, hhelp]

/-- The only long option with a value is the one for a currency. -/
theorem exists_named_some (name : String) (value : List Char) :
    ∃ f, IsArgument ("--" ++ name ++ "=" ++ String.ofList value) f ∧
      ∀ o : Options, o.named name (some value) = f o := by
  by_cases hcurrency : name = "currency"
  · subst hcurrency
    refine ⟨_, .item (.currencyAfterName (String.ofList value)), fun o => ?_⟩
    rw [take?_currency]
    rfl
  · refine ⟨_, .misused, fun o => ?_⟩
    simp [named, hcurrency]

/-- The forms of a long option. -/
theorem exists_long {arg : String} {cs : List Char} (harg : arg.toList = "--".toList ++ cs) :
    ∃ f, IsArgument arg f ∧ ∀ o : Options, o.long cs = f o := by
  have hsplit : cs.takeWhile (· != '=') ++ cs.dropWhile (· != '=') = cs :=
    List.takeWhile_append_dropWhile
  rw [eq_append_ofList harg]
  unfold long
  generalize cs.takeWhile (· != '=') = name at hsplit ⊢
  cases hrest : cs.dropWhile (· != '=') with
  | nil =>
      rw [hrest, List.append_nil] at hsplit
      rw [← hsplit]
      exact exists_named_none (String.ofList name)
  | cons sign value =>
      have hsign : sign = '=' := by
        have hfirst := List.head?_dropWhile_not (· != '=') cs
        rw [hrest] at hfirst
        simpa using hfirst
      have hvalue : String.ofList cs = String.ofList name ++ "=" ++ String.ofList value := by
        rw [← hsplit, hrest, hsign]
        simp [String.append_assoc]
      rw [hvalue, ← String.append_assoc, ← String.append_assoc]
      exact exists_named_some (String.ofList name) value

/-- The forms of a group of short options. -/
theorem exists_short {arg : String} {cs : List Char} (harg : arg.toList = "-".toList ++ cs) :
    ∃ f, IsArgument arg f ∧ ∀ o : Options, o.short cs = f o := by
  unfold short
  split
  · -- the letter of the currency alone
    exact ⟨_, .currency (.inl (String.toList_inj.mp harg)), fun o => rfl⟩
  · -- the letter with an equals sign and a value
    rename_i value
    have hvalue : arg = "-c=" ++ String.ofList value := eq_append_ofList harg
    have hwritten : Item.IsWritten (.currency (String.ofList value)) arg := by
      rw [hvalue]
      exact .currencyAfterLetter (String.ofList value)
    refine ⟨_, .item hwritten, fun o => ?_⟩
    rw [take?_currency]
  · -- the letter with a value
    rename_i value hne hsign
    have hvalue : arg = "-c" ++ String.ofList value := eq_append_ofList harg
    have hwritten : Item.IsWritten (.currency (String.ofList value)) arg := by
      rw [hvalue]
      refine .currencyAttached (fun hempty => hne (String.ofList_eq_empty_iff.mp hempty)) ?_
      intro hhead
      rw [String.toList_ofList] at hhead
      obtain ⟨rest, hrest⟩ := List.head?_eq_some_iff.mp hhead
      exact hsign rest hrest
    refine ⟨_, .item hwritten, fun o => ?_⟩
    rw [take?_currency]
  · -- the letter of the version
    have hmore : ∃ more, arg = "-V" ++ more := ⟨_, eq_append_ofList harg⟩
    exact ⟨_, .version (.inr hmore), fun o => rfl⟩
  · -- the letter of the help
    have hmore : ∃ more, arg = "-h" ++ more := ⟨_, eq_append_ofList harg⟩
    exact ⟨_, .help (.inr hmore), fun o => rfl⟩
  · exact ⟨_, .misused, fun o => rfl⟩

/-- What an argument does, whatever was read before it. -/
theorem exists_isArgument (arg : String) :
    ∃ f, IsArgument arg f ∧ ∀ o : Options, o.effect arg.toList = f o := by
  unfold effect
  split
  · rename_i harg
    have hend : arg = "--" := String.toList_inj.mp harg
    exact ⟨_, hend ▸ .endOfOptions, fun o => rfl⟩
  · rename_i harg
    exact exists_long harg
  · rename_i harg
    have hdash : arg = "-" := String.toList_inj.mp harg
    have hne : arg ≠ "" := by
      rw [hdash]
      decide
    refine ⟨_, .item (.file hne fun _ => hdash), fun o => ?_⟩
    rw [hdash]
    rfl
  · rename_i harg
    exact exists_short harg
  · -- only the empty argument is plain and no file
    rename_i hplain
    by_cases hempty : arg = ""
    · subst hempty
      exact ⟨_, .misused, fun o => by rw [withFile?]; simp; rfl⟩
    · refine ⟨_, .item (.file hempty ?_), fun o => rfl⟩
      intro hhead
      obtain ⟨rest, hrest⟩ := List.head?_eq_some_iff.mp hhead
      exact absurd hrest (hplain rest)

/-- An argument that gives an item has no other effect. -/
theorem effect_of_isWritten {i : Item} {arg : String} (h : i.IsWritten arg) (o : Options) :
    o.effect arg.toList = .ofOption (o.take? i) := by
  cases h with
  | auto | naive | detailed => rfl
  | currencyAfterName symbol | currencyAfterLetter symbol =>
      rw [String.toList_append]
      rfl
  | @currencyAttached symbol hne hsign =>
      rw [String.toList_append]
      show o.short ('c' :: symbol.toList) = _
      cases hsymbol : symbol.toList with
      | nil => exact absurd (String.toList_eq_nil_iff.mp hsymbol) hne
      | cons d ds =>
          have hd : d ≠ '=' := by
            rintro rfl
            exact hsign (by rw [hsymbol]; rfl)
          rw [take?, hsymbol, short]
          · intro hnil
            cases hnil
          · intro value hvalue
            exact hd (List.cons.inj hvalue).1
  | @file _ hne hplain =>
      cases hname : arg.toList with
      | nil => exact absurd (String.toList_eq_nil_iff.mp hname) hne
      | cons d ds =>
          rw [take?, hname]
          by_cases hd : d = '-'
          · have hdash : arg = "-" := hplain (by rw [hname, hd]; rfl)
            subst hdash
            cases hname
            rfl
          · unfold effect
            simp [hd]

/-! ### Items and options -/

/-- What is taken comes to what was given before, and nothing for its purpose was. -/
theorem gives_of_take? (h : o.take? i = some next) :
    (∀ j, j.purpose = i.purpose → ¬ o.Gives j) ∧ ∀ j, next.Gives j ↔ j = i ∨ o.Gives j := by
  cases i with
  | currency symbol =>
      obtain ⟨hfree, rfl⟩ := withCurrency?_eq_some_iff.mp h
      constructor <;> intro j <;> cases j <;> simp [Item.purpose, Gives, hfree, @eq_comm _ symbol]
  | auto | naive | detailed =>
      obtain ⟨hfree, rfl⟩ := flag?_eq_some_iff.mp h
      constructor <;> intro j <;> cases j <;> simp [Item.purpose, Gives, hfree]
  | file name =>
      obtain ⟨hfree, -, rfl⟩ := withFile?_eq_some_iff.mp h
      constructor <;> intro j <;> cases j <;> simp [Item.purpose, Gives, hfree, @eq_comm _ name]

/-- An item can be taken when nothing for its purpose has been given. -/
theorem exists_take? (hne : i ≠ .file "") (h : ∀ j, j.purpose = i.purpose → ¬ o.Gives j) :
    ∃ next, o.take? i = some next := by
  cases i with
  | currency symbol =>
      have hfree : o.currency = .none :=
        Option.eq_none_iff_forall_ne_some.mpr fun other => h (.currency other) rfl
      exact ⟨_, withCurrency?_eq_some_iff.mpr ⟨hfree, rfl⟩⟩
  | auto => exact ⟨_, flag?_eq_some_iff.mpr ⟨eq_false_of_ne_true (h .auto rfl), rfl⟩⟩
  | naive => exact ⟨_, flag?_eq_some_iff.mpr ⟨eq_false_of_ne_true (h .naive rfl), rfl⟩⟩
  | detailed => exact ⟨_, flag?_eq_some_iff.mpr ⟨eq_false_of_ne_true (h .detailed rfl), rfl⟩⟩
  | file name =>
      have hfree : o.file = .none :=
        Option.eq_none_iff_forall_ne_some.mpr fun p => h (.file p.text) rfl
      have hname : name.toList ≠ [] := by
        intro hnil
        exact hne (congrArg Item.file (String.toList_eq_nil_iff.mp hnil))
      exact ⟨_, withFile?_eq_some_iff.mpr ⟨hfree, hname, rfl⟩⟩

/-- Items can be taken one after another when no two are for the same purpose. -/
theorem foldlM_take?_eq_some_iff (hne : .file "" ∉ items) :
    items.foldlM take? o = some last ↔
      (items.map Item.purpose).Nodup ∧ (∀ i ∈ items, ∀ j, j.purpose = i.purpose → ¬ o.Gives j) ∧
        ∀ j, last.Gives j ↔ j ∈ items ∨ o.Gives j := by
  induction items generalizing o with
  | nil =>
      constructor
      · intro h
        cases h
        simp
      · rintro ⟨-, -, h⟩
        have hsame : o = last := eq_of_gives fun i => by simp [h]
        rw [hsame]
        rfl
  | cons i items ih =>
      obtain ⟨hfirst, hrest⟩ := not_or.mp (mt List.mem_cons.mpr hne)
      rw [List.foldlM_cons, Option.bind_eq_bind, Option.bind_eq_some_iff, List.map_cons,
        List.nodup_cons]
      constructor
      · rintro ⟨next, htake, hlast⟩
        obtain ⟨hfree, hnext⟩ := gives_of_take? htake
        obtain ⟨hnodup, hapart, hgives⟩ := (ih hrest).mp hlast
        refine ⟨⟨?_, hnodup⟩, ?_, ?_⟩
        · intro hmem
          obtain ⟨k, hk, hpurpose⟩ := List.mem_map.mp hmem
          exact hapart k hk i hpurpose.symm ((hnext i).mpr (.inl rfl))
        · intro k hk j hpurpose hgiven
          rcases List.mem_cons.mp hk with rfl | hlater
          · exact hfree j hpurpose hgiven
          · exact hapart k hlater j hpurpose ((hnext j).mpr (.inr hgiven))
        · intro j
          rw [hgives, hnext, List.mem_cons, or_left_comm, or_assoc]
      · rintro ⟨⟨hfresh, hnodup⟩, hapart, hgives⟩
        obtain ⟨next, htake⟩ := exists_take? (Ne.symm hfirst) (hapart i List.mem_cons_self)
        obtain ⟨-, hnext⟩ := gives_of_take? htake
        refine ⟨next, htake, (ih hrest).mpr ⟨hnodup, ?_, ?_⟩⟩
        · intro k hk j hpurpose hgiven
          rcases (hnext j).mp hgiven with rfl | hbefore
          · exact hfresh (hpurpose ▸ List.mem_map_of_mem hk)
          · exact hapart k (List.mem_cons_of_mem i hk) j hpurpose hbefore
        · intro j
          rw [hgives, hnext, List.mem_cons, or_left_comm, or_assoc]

/-! ### Reading -/

theorem read_cons_of_options {arg : String} (heffect : o.effect arg.toList = .options next)
    (args : List String) : o.read (arg :: args) = next.read args := by
  conv => lhs; unfold read
  simp only [heffect]

/-- Files behind a double dash are taken as they are. -/
theorem readFiles_eq (names : List String) (o : Options) :
    o.readFiles names = ((names.map .file).foldlM take? o).elim .misused finish := by
  induction names generalizing o with
  | nil => rfl
  | cons name names ih =>
      rw [readFiles, List.map_cons, List.foldlM_cons, take?]
      cases o.withFile? name.toList with
      | none => rfl
      | some next => exact ih next

/-- To read the arguments is to take the items that they give. -/
theorem read_of_isLine (h : IsLine items args) (o : Options) :
    o.read args = (items.foldlM take? o).elim .misused finish := by
  induction h generalizing o with
  | nil => rw [read]; rfl
  | @item i _ _ _ hwritten _ ih =>
      have heffect := effect_of_isWritten hwritten o
      rw [List.foldlM_cons]
      cases htake : o.take? i with
      | none =>
          rw [htake] at heffect
          unfold read
          simp only [heffect, Effect.ofOption]
          rfl
      | some next =>
          rw [htake] at heffect
          rw [read_cons_of_options heffect]
          exact ih next
  | @currency _ arg symbol _ hoption hplain _ ih =>
      have heffect : o.effect arg.toList = .awaitCurrency := by
        rcases hoption with rfl | rfl <;> rfl
      rw [List.foldlM_cons, take?, read, heffect]
      simp only [isOptionLike_eq_false_iff.mpr hplain]
      cases o.withCurrency? symbol.toList with
      | none => rfl
      | some next => exact ih next
  | @files names _ =>
      have heffect : o.effect "--".toList = .endOfOptions := rfl
      unfold read
      simp only [heffect]
      exact readFiles_eq names o

theorem exists_isWritten {arg : String} (h : o.effect arg.toList = .options next) :
    ∃ i : Item, i.IsWritten arg := by
  obtain ⟨f, hform, heffect⟩ := exists_isArgument arg
  rw [heffect] at h
  cases hform with
  | item hwritten => exact ⟨_, hwritten⟩
  | currency | endOfOptions | version | help | misused => cases h

theorem eq_of_awaitCurrency {arg : String} (h : o.effect arg.toList = .awaitCurrency) :
    arg = "-c" ∨ arg = "--currency" := by
  obtain ⟨f, hform, heffect⟩ := exists_isArgument arg
  rw [heffect] at h
  cases hform with
  | currency hoption => exact hoption
  | @item i =>
      dsimp only at h
      cases htake : o.take? i <;> rw [htake] at h <;> cases h
  | endOfOptions | version | help | misused => cases h

theorem eq_of_endOfOptions {arg : String} (h : o.effect arg.toList = .endOfOptions) :
    arg = "--" := by
  obtain ⟨f, hform, heffect⟩ := exists_isArgument arg
  rw [heffect] at h
  cases hform with
  | endOfOptions => rfl
  | @item i =>
      dsimp only at h
      cases htake : o.take? i <;> rw [htake] at h <;> cases h
  | currency | version | help | misused => cases h

theorem not_mem_of_readFiles {names : List String} (h : o.readFiles names = .run last) :
    "" ∉ names := by
  induction names generalizing o with
  | nil => exact List.not_mem_nil
  | cons name names ih =>
      rw [readFiles] at h
      cases htaken : o.withFile? name.toList with
      | none =>
          rw [htaken] at h
          cases h
      | some next =>
          rw [htaken] at h
          rw [List.mem_cons, not_or]
          refine ⟨?_, ih h⟩
          rintro rfl
          exact (withFile?_eq_some_iff.mp htaken).2.1 rfl

/-- Arguments that ask for a run give items. -/
theorem exists_isLine (h : o.read args = .run last) : ∃ items, IsLine items args := by
  induction o, args using read.induct with
  | case1 o => exact ⟨[], .nil⟩
  | case2 o arg args next heffect ih =>
      rw [read_cons_of_options heffect] at h
      obtain ⟨i, hwritten⟩ := exists_isWritten heffect
      obtain ⟨items, hline⟩ := ih h
      exact ⟨i :: items, .item hwritten hline⟩
  | case3 o arg args heffect =>
      obtain rfl := eq_of_endOfOptions heffect
      unfold read at h
      simp only [heffect] at h
      exact ⟨args.map .file, .files (not_mem_of_readFiles h)⟩
  | case4 o arg args heffect | case5 o arg args heffect | case6 o arg args heffect
  | case7 o arg heffect =>
      -- the version, help, a misuse and an option without its value are no runs
      unfold read at h
      simp only [heffect] at h
      cases h
  | case8 o arg heffect value args hlike =>
      rw [read, heffect] at h
      simp only [hlike, if_true] at h
      cases h
  | case9 o arg heffect value args hlike next hnext ih =>
      rw [read, heffect] at h
      simp only [hlike, hnext] at h
      obtain ⟨items, hline⟩ := ih h
      have hplain := isOptionLike_eq_false_iff.mp (eq_false_of_ne_true hlike)
      exact ⟨.currency value :: items, .currency (eq_of_awaitCurrency heffect) hplain hline⟩
  | case10 o arg heffect value args hlike hnone =>
      rw [read, heffect] at h
      simp only [hlike, hnone] at h
      cases h

/-- Accepted items that are given one after another lead to the options that have them, and other
items do not lead to a run. -/
theorem read_none_of_isLine (h : IsLine items args) :
    Options.none.read args = .run last ↔ IsAccepted items ∧ ∀ i, last.Gives i ↔ i ∈ items := by
  have htaken (given : Options) : items.foldlM take? Options.none = some given ↔
      (items.map Item.purpose).Nodup ∧ ∀ j, given.Gives j ↔ j ∈ items := by
    rw [foldlM_take?_eq_some_iff h.file_empty_not_mem]
    simp [not_gives_none]
  rw [read_of_isLine h]
  constructor
  · intro hread
    cases hgiven : items.foldlM take? Options.none with
    | none =>
        rw [hgiven] at hread
        cases hread
    | some given =>
        rw [hgiven] at hread
        obtain ⟨rfl, hapart⟩ := finish_eq_run_iff.mp hread
        obtain ⟨hnodup, hgives⟩ := (htaken given).mp hgiven
        simp only [hgives] at hapart
        exact ⟨⟨hnodup, hapart⟩, hgives⟩
  · rintro ⟨⟨hnodup, hapart⟩, hgives⟩
    rw [(htaken last).mpr ⟨hnodup, hgives⟩]
    simp only [← hgives] at hapart
    exact finish_eq_run_iff.mpr ⟨rfl, hapart⟩

end Options

/-- The arguments ask for a run just when they give items that are accepted together, and the
options of the run have these items. -/
theorem request_eq_run_iff {args : List String} {o : Options} :
    request args = .run o ↔
      ∃ items, IsLine items args ∧ IsAccepted items ∧ ∀ i, o.Gives i ↔ i ∈ items := by
  constructor
  · intro h
    obtain ⟨items, hline⟩ := Options.exists_isLine h
    exact ⟨items, hline, (Options.read_none_of_isLine hline).mp h⟩
  · rintro ⟨items, hline, haccepted⟩
    exact (Options.read_none_of_isLine hline).mpr haccepted

/-- The options have what the arguments give, and nothing else. -/
structure Options.AreGivenBy (o : Options) (args : List String) : Prop where
  exists_isLine : ∃ items, IsLine items args
  isAccepted : ∀ items, IsLine items args → IsAccepted items
  gives_iff : ∀ items, IsLine items args → ∀ i, o.Gives i ↔ i ∈ items
  /-- The file to read is the one that is given, unless that is a single dash. -/
  inputFile_iff : ∀ items, IsLine items args →
    ∀ p, o.inputFile = some p ↔ .file p.text ∈ items ∧ p.text ≠ "-"

theorem areGivenBy_of_request {args : List String} {o : Options} (h : request args = .run o) :
    o.AreGivenBy args := by
  have hread (items : List Item) (hline : IsLine items args) :
      IsAccepted items ∧ ∀ i, o.Gives i ↔ i ∈ items :=
    (Options.read_none_of_isLine hline).mp h
  obtain ⟨items, hline, -⟩ := request_eq_run_iff.mp h
  exact {
    exists_isLine := ⟨items, hline⟩
    isAccepted := fun items hline => (hread items hline).1
    gives_iff := fun items hline => (hread items hline).2
    inputFile_iff := by
      intro items hline p
      rw [Options.inputFile_eq_some_iff, ← (hread items hline).2 (.file p.text)]
      rfl }

end Transcription.CommandLine
