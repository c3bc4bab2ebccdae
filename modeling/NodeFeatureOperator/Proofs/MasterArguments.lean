import Mathlib.Data.List.Infix
import NodeFeatureOperator.Proofs.Settings

/-!
# Reading the master's command line back

The command line of the master is a list of flags in a fixed order. Each begins with a text of its
own, and is left out where its setting has no value. None of these beginnings starts another one, so
that the flags can be told apart one after the other, whatever texts they carry: a value stands
behind its own beginning, and cannot be taken for a flag. The values of a list are joined with
commas, and come apart again if they have none in them.

## Main definitions

* `Flags.render`, `Flags.values?`: a list of flags as arguments, and the values read back from them.
* `MasterSettings`: the settings that the command line shows.
* `MasterSettings.ofArguments?`: the settings read back from a command line.

## Main results

* `Flags.values?_render`: values read back from rendered flags are those of the flags.
* `master_arguments_determine_settings`: the command line determines the settings that it shows.
-/

namespace NodeFeatureOperator

/-! ### Flags -/

namespace Flags

/-- The arguments of a list of flags, each a beginning with the value that follows it; a flag
without a value is left out. -/
def render (flags : List (String × Option String)) : List String :=
  flags.flatMap fun f => f.2.toList.map (f.1 ++ ·)

/-- What follows a beginning in a text that has it. -/
def after? (beginning text : String) : Option String :=
  (beginning.toList.isPrefixOf? text.toList).map String.ofList

/-- Takes the value of a flag off a command line, if the line starts with the flag. -/
def take (beginning : String) : List String → Option String × List String
  | [] => (none, [])
  | argument :: rest =>
    match after? beginning argument with
    | some value => (some value, rest)
    | none => (none, argument :: rest)

/-- The values of flags with the given beginnings, in this order, on a command line of nothing
else. -/
def values? : List String → List String → Option (List (Option String))
  | [], [] => some []
  | [], _ :: _ => none
  | beginning :: others, arguments =>
    let (value, rest) := take beginning arguments
    (values? others rest).map (value :: ·)

/-- Neither of two texts starts the other one. -/
def Diverge (a b : String) : Prop := ¬ a.toList <+: b.toList ∧ ¬ b.toList <+: a.toList

instance (a b : String) : Decidable (Diverge a b) :=
  inferInstanceAs (Decidable (_ ∧ _))

variable {beginning : String}

/-- What follows a beginning is what was put there. -/
theorem after?_append (value : String) : after? beginning (beginning ++ value) = some value := by
  have hprefix : beginning.toList.isPrefixOf? (beginning ++ value).toList = some value.toList := by
    rw [List.isPrefixOf?_eq_some_iff_append_eq, String.toList_append]
  rw [after?, hprefix, Option.map_some, String.ofList_toList]

/-- A text that starts otherwise does not have the beginning. -/
theorem after?_of_diverge {other : String} (h : Diverge beginning other) (value : String) :
    after? beginning (other ++ value) = none := by
  refine Option.map_eq_none_iff.mpr (Option.eq_none_iff_forall_ne_some.mpr fun rest hrest => ?_)
  rw [List.isPrefixOf?_eq_some_iff_append_eq, String.toList_append] at hrest
  have hbeginning : beginning.toList <+: other.toList ++ value.toList := ⟨rest, hrest⟩
  obtain hab | hba := List.prefix_or_prefix_of_prefix hbeginning (List.prefix_append _ _)
  · exact h.1 hab
  · exact h.2 hba

/-- Nothing is taken off flags that start otherwise. -/
theorem take_of_diverge {flags : List (String × Option String)}
    (h : ∀ f ∈ flags, Diverge beginning f.1) :
    take beginning (render flags) = (none, render flags) := by
  cases harguments : render flags with
  | nil => rfl
  | cons argument rest =>
      have hmem : argument ∈ render flags := harguments ▸ List.mem_cons_self
      obtain ⟨f, hf, hargument⟩ := List.mem_flatMap.mp hmem
      obtain ⟨value, -, rfl⟩ := List.mem_map.mp hargument
      rw [take, after?_of_diverge (h f hf)]

/-- The values read back from rendered flags are those of the flags, if no beginning starts another
one. -/
theorem values?_render {flags : List (String × Option String)}
    (h : (flags.map Prod.fst).Pairwise Diverge) :
    values? (flags.map Prod.fst) (render flags) = some (flags.map Prod.snd) := by
  induction flags with
  | nil => rfl
  | cons f flags ih =>
      obtain ⟨beginning, value?⟩ := f
      obtain ⟨hfirst, hrest⟩ := List.pairwise_cons.mp h
      have htake : take beginning (render ((beginning, value?) :: flags)) =
          (value?, render flags) := by
        cases value? with
        | none =>
            change take beginning (render flags) = _
            exact take_of_diverge fun f' hf' => hfirst _ (List.mem_map_of_mem hf')
        | some value =>
            change take beginning ((beginning ++ value) :: render flags) = _
            rw [take, after?_append]
      simp only [List.map_cons, values?, htake, ih hrest, Option.map_some]

end Flags

/-! ### Values -/

/-- The texts between commas. -/
def splitAtCommas (text : String) : List String := (text.toList.splitOn ',').map String.ofList

/-- Several texts joined with commas; nothing for no text. -/
def joined? (texts : List String) : Option String :=
  if texts.isEmpty then none else some (",".intercalate texts)

/-- Texts without commas come apart again. -/
theorem splitAtCommas_joined {texts : List String} (h : ∀ t ∈ texts, ',' ∉ t.toList) :
    (joined? texts).elim [] splitAtCommas = texts := by
  cases texts with
  | nil => rfl
  | cons t rest =>
      have hchars : ∀ l ∈ (t :: rest).map String.toList, ',' ∉ l := by
        intro l hl
        obtain ⟨t', ht', rfl⟩ := List.mem_map.mp hl
        exact h t' ht'
      change splitAtCommas (",".intercalate (t :: rest)) = t :: rest
      rw [splitAtCommas, String.toList_intercalate]
      change (List.splitOn ',' ([','].intercalate _)).map String.ofList = _
      rw [List.splitOn_intercalate ',' hchars (by simp), List.map_map]
      simp

/-- The value of a flag that is there or not: nothing follows its beginning. -/
def switch? (on : Bool) : Option String := if on then some "" else none

/-- A switch is on if its flag is there. -/
theorem switch?_isSome (on : Bool) : (switch? on).isSome = on := by
  cases on <;> rfl

/-- The number of a text of decimal digits. -/
def decimal? (text : String) : Option Int :=
  if text.toList.all Char.isDigit then some (Nat.ofDigitChars 10 text.toList 0) else none

/-- A number that is not negative is read back. -/
theorem decimal?_toString {i : Int} (h : 0 ≤ i) : decimal? (toString i) = some i := by
  obtain ⟨n, rfl⟩ := Int.eq_ofNat_of_zero_le h
  have htext : (toString (n : Int)).toList = Nat.toDigits 10 n := by
    change (toString n).toList = _
    rw [Nat.toString_eq_repr, Nat.toList_repr]
  have hdigits : (Nat.toDigits 10 n).all Char.isDigit = true :=
    List.all_eq_true.mpr fun c hc => Nat.isDigit_of_mem_toDigits (by decide) (by decide) hc
  rw [decimal?, htext, if_pos hdigits, Nat.ofDigitChars_ten_toDigits]

/-! ### The command line of the master -/

/-- The settings that the command line of the master shows. -/
structure MasterSettings where
  port : Int
  extraLabelNs : List String
  resourceLabels : List String
  whiteList? : Option String
  enableTaints : Bool
deriving DecidableEq, Repr

namespace MasterSettings

/-- The beginnings of the flags. -/
def beginnings : List String :=
  ["--port=", "--extra-label-ns=", "--resource-labels=", "--label-whitelist=", "--enable-taints"]

/-- The values of the flags. -/
def values (m : MasterSettings) : List (Option String) :=
  [some (toString m.port), joined? m.extraLabelNs, joined? m.resourceLabels, m.whiteList?,
    switch? m.enableTaints]

/-- The settings of a command line. -/
def ofArguments? (arguments : List String) : Option MasterSettings :=
  match Flags.values? beginnings arguments with
  | some [some port, extraLabelNs, resourceLabels, whiteList?, taints] =>
    (decimal? port).map fun port =>
      { port
        extraLabelNs := extraLabelNs.elim [] splitAtCommas
        resourceLabels := resourceLabels.elim [] splitAtCommas
        whiteList?
        enableTaints := taints.isSome }
  | _ => none

end MasterSettings

namespace Spec

/-- The settings of a desired state that the command line of the master shows: the port with its
default, the lists, the filter where it is not blank, and whether nodes are tainted. -/
def masterSettings (s : Spec) : MasterSettings :=
  { port := s.operand.port
    extraLabelNs := s.extraLabelNs
    resourceLabels := s.resourceLabels
    whiteList? := s.whiteList?
    enableTaints := s.enableTaints }

/-- No value of a list has a comma in it. -/
def CommaFree (s : Spec) : Prop :=
  (∀ t ∈ s.extraLabelNs, ',' ∉ t.toList) ∧ ∀ t ∈ s.resourceLabels, ',' ∉ t.toList

instance (s : Spec) : Decidable s.CommaFree := inferInstanceAs (Decidable (_ ∧ _))

end Spec

/-- The port of the master is positive. -/
theorem Operand.port_pos (o : Operand) : 0 < o.port := by
  rw [port]
  split
  · split
    · assumption
    · decide
  · decide

namespace Blueprint

/-- The command line of the master renders the settings that it shows. -/
theorem masterArguments_eq (s : Spec) :
    masterArguments s =
      Flags.render (MasterSettings.beginnings.zip s.masterSettings.values) := by
  have hlist : ∀ flag texts, listFlag flag texts =
      (joined? texts).toList.map (flag ++ "=" ++ ·) := by
    intro flag texts
    cases texts <;> rfl
  have htaints : (if s.enableTaints then ["--enable-taints"] else []) =
      (switch? s.enableTaints).toList.map ("--enable-taints" ++ ·) := by
    cases s.enableTaints <;> rfl
  rw [masterArguments, hlist, hlist, whiteListFlag_eq, htaints]
  simp only [Flags.render, MasterSettings.beginnings, MasterSettings.values, Spec.masterSettings,
    List.zip_cons_cons, List.zip_nil_right, List.flatMap_cons, List.flatMap_nil, List.append_nil,
    List.append_assoc, Option.toList_some, List.map_cons, List.map_nil]
  rfl

/-- The settings are read back from the command line. -/
theorem ofArguments?_masterArguments {s : Spec} (h : s.CommaFree) :
    MasterSettings.ofArguments? (masterArguments s) = some s.masterSettings := by
  have hdiverge : ((MasterSettings.beginnings.zip s.masterSettings.values).map Prod.fst).Pairwise
      Flags.Diverge := by
    change MasterSettings.beginnings.Pairwise Flags.Diverge
    decide
  have hvalues : Flags.values? MasterSettings.beginnings (masterArguments s) =
      some s.masterSettings.values := by
    rw [masterArguments_eq]
    exact Flags.values?_render hdiverge
  rw [MasterSettings.ofArguments?, hvalues]
  have hport : decimal? (toString s.operand.port) = some s.operand.port :=
    decimal?_toString (Int.le_of_lt s.operand.port_pos)
  simp only [MasterSettings.values, Spec.masterSettings, hport, switch?_isSome,
    splitAtCommas_joined h.1, splitAtCommas_joined h.2, Option.map_some]

end Blueprint

/-- **The command line of the master determines its settings.** For desired states whose lists have
no commas in their values, the command lines are equal exactly if the port, both lists, the filter
where it is not blank, and the taints are; and these can be read back from the command line,
whatever texts the values and the filter are, also such that look like another flag. -/
theorem master_arguments_determine_settings {s s' : Spec} (hs : s.CommaFree)
    (hs' : s'.CommaFree) :
    (Blueprint.masterArguments s = Blueprint.masterArguments s' ↔
      s.operand.port = s'.operand.port ∧ s.extraLabelNs = s'.extraLabelNs ∧
        s.resourceLabels = s'.resourceLabels ∧ s.whiteList? = s'.whiteList? ∧
        s.enableTaints = s'.enableTaints) ∧
    MasterSettings.ofArguments? (Blueprint.masterArguments s) = some s.masterSettings := by
  refine ⟨?_, Blueprint.ofArguments?_masterArguments hs⟩
  have hsettings : s.masterSettings = s'.masterSettings ↔
      s.operand.port = s'.operand.port ∧ s.extraLabelNs = s'.extraLabelNs ∧
        s.resourceLabels = s'.resourceLabels ∧ s.whiteList? = s'.whiteList? ∧
        s.enableTaints = s'.enableTaints := by
    simp only [Spec.masterSettings, MasterSettings.mk.injEq]
  rw [← hsettings]
  constructor
  · intro hline
    have hread := Blueprint.ofArguments?_masterArguments hs
    rw [hline, Blueprint.ofArguments?_masterArguments hs'] at hread
    exact (Option.some.inj hread).symm
  · intro heq
    rw [Blueprint.masterArguments_eq, Blueprint.masterArguments_eq, heq]

/-- A filter that looks like the flag of the taints is not taken for it: the command line is not
that of the desired state with taints and no filter, and shows the filter as it is. -/
theorem master_arguments_determine_settings_disguised :
    let s : Spec :=
      { extraLabelNs := ["", "--resource-labels=gpu"], labelWhiteList := some "--enable-taints" }
    let s' : Spec := { s with labelWhiteList := none, enableTaints := true }
    s.CommaFree ∧ s'.CommaFree ∧
      Blueprint.masterArguments s = ["--port=12000", "--extra-label-ns=,--resource-labels=gpu",
        "--label-whitelist=--enable-taints"] ∧
      Blueprint.masterArguments s ≠ Blueprint.masterArguments s' ∧
      MasterSettings.ofArguments? (Blueprint.masterArguments s) =
        some
          { port := 12000
            extraLabelNs := ["", "--resource-labels=gpu"]
            resourceLabels := []
            whiteList? := some "--enable-taints"
            enableTaints := false } := by
  intro s s'
  have hs : s.CommaFree := by decide
  have hs' : s'.CommaFree := by decide
  obtain ⟨hequal, hread⟩ := master_arguments_determine_settings hs hs'
  have hfilter : s.whiteList? ≠ s'.whiteList? := by decide
  refine ⟨hs, hs', by decide, fun hline => ?_, ?_⟩
  · obtain ⟨-, -, -, hsame, -⟩ := hequal.mp hline
    exact hfilter hsame
  · rw [hread]
    decide

/-- A comma within a value is not told from one between two values. -/
example :
    Blueprint.masterArguments { resourceLabels := ["gpu,fpga"] } =
      Blueprint.masterArguments { resourceLabels := ["gpu", "fpga"] } := by decide

end NodeFeatureOperator
