import BugReport.Proofs.Parameter.Lines
import BugReport.Report.Request

/-! # The order of arguments

A request takes from its arguments the last text that they give to each parameter, and nothing else: which
instance is selected, which configured parameters are left open, and what is compiled follow from these.
Only what is told depends on the other arguments: first comes what was refused of them, and the rest follows
again from the last texts.
-/

namespace BugReport.Request

open Store (SameValues assignment? refusal?)

/-- Two requests with the same settings that compile to the same, but for what is told. -/
structure CompilesLike (now : Int) (r r' : Request) : Prop where
  settings : r.settings = r'.settings
  query : (r.compile now).query = (r'.compile now).query
  store : (r.compile now).store = (r'.compile now).store

/-- What a request tells, apart from what was refused of its arguments. -/
def toldBesides (file : ConfigFile) (caller : Store) (now : Int) : List Diagnostic :=
  let selected := caller.present? "instance"
  let (store, refused) := applyDefaults caller caller (file.defaultParameters selected)
  refused ++ (file.resolve selected (caller.present? "bzalternateconfig")).2 ++
    (BugReport.compile store now).diagnostics

theorem diagnostics_compile_ofArgs (file : ConfigFile) (args : List String) (now : Int) :
    ((ofArgs file args).compile now).diagnostics =
      args.filterMap refusal? ++ toldBesides file (Store.empty.applyLines args).1 now := by
  have hrefused : (Store.empty.applyLines args).2 = args.filterMap refusal? := by rw [Store.applyLines_eq]
  rw [← hrefused]
  simp only [compile, ofArgs, toldBesides, List.append_assoc]

variable {args args' : List String}

theorem compilesLike_of_sameValues (h : SameValues args args') (file : ConfigFile) (now : Int) :
    CompilesLike now (ofArgs file args) (ofArgs file args') := by
  have hcaller := Store.applyLines_of_sameValues h .empty
  have hsettings : (ofArgs file args).settings = (ofArgs file args').settings := by
    simp only [ofArgs, hcaller]
  have hstore : (ofArgs file args).store = (ofArgs file args').store := by
    simp only [ofArgs, hcaller]
  exact ⟨hsettings, by simp only [compile, hstore], by simp only [compile, hstore]⟩

/-- Arguments that give the same last text to each parameter make the same request, but for what is told about
the refused ones, which comes first. In particular arguments for distinct parameters may come in any order: they give
the same last texts, and the same is told, if in another order. -/
theorem ofArgs_of_last_values (file : ConfigFile) (now : Int) (args args' : List String) :
    (SameValues args args' → CompilesLike now (ofArgs file args) (ofArgs file args') ∧
      ∃ told, ((ofArgs file args).compile now).diagnostics = args.filterMap refusal? ++ told ∧
        ((ofArgs file args').compile now).diagnostics = args'.filterMap refusal? ++ told) ∧
    (args.Perm args' → ((args.filterMap assignment?).map Prod.fst).Nodup →
      SameValues args args' ∧ CompilesLike now (ofArgs file args) (ofArgs file args') ∧
      ((ofArgs file args).compile now).diagnostics.Perm ((ofArgs file args').compile now).diagnostics) := by
  have htold (h : SameValues args args') :
      ∃ told, ((ofArgs file args).compile now).diagnostics = args.filterMap refusal? ++ told ∧
        ((ofArgs file args').compile now).diagnostics = args'.filterMap refusal? ++ told := by
    refine ⟨_, diagnostics_compile_ofArgs file args now, ?_⟩
    rw [diagnostics_compile_ofArgs, Store.applyLines_of_sameValues h]
  constructor
  · intro h
    exact ⟨compilesLike_of_sameValues h file now, htold h⟩
  · intro hperm hnodup
    have hsame := Store.sameValues_of_perm hperm hnodup
    obtain ⟨told, hfirst, hsecond⟩ := htold hsame
    refine ⟨hsame, compilesLike_of_sameValues hsame file now, ?_⟩
    rw [hfirst, hsecond]
    exact (hperm.filterMap refusal?).append_right told

/-- A value that is refused makes no difference but for what is told about it. -/
theorem refused_values_told :
    SameValues [] ["format=co unt"] ∧
      ¬ ((ofArgs {} []).compile 0).diagnostics.Perm ((ofArgs {} ["format=co unt"]).compile 0).diagnostics := by
  decide +kernel

/-- Two parameters, a value that is overwritten, one that is refused, and an argument that says nothing. -/
theorem ofArgs_of_last_values_reordered :
    SameValues ["cc=a&b", "sort=id", "priority=P1"] ["priority=P2", "nonsense", "priority=P1", "sort=id"] ∧
    ["cc=a&b", "sort=id", "priority=P1"].Perm ["priority=P1", "cc=a&b", "sort=id"] ∧
    CompilesLike 0 (ofArgs {} ["cc=a&b", "sort=id", "priority=P1"])
      (ofArgs {} ["priority=P2", "nonsense", "priority=P1", "sort=id"]) ∧
    SameValues ["cc=a&b", "sort=id", "priority=P1"] ["priority=P1", "cc=a&b", "sort=id"] ∧
    CompilesLike 0 (ofArgs {} ["cc=a&b", "sort=id", "priority=P1"])
      (ofArgs {} ["priority=P1", "cc=a&b", "sort=id"]) := by
  have hsame : SameValues ["cc=a&b", "sort=id", "priority=P1"]
      ["priority=P2", "nonsense", "priority=P1", "sort=id"] := by decide +kernel
  have hperm : ["cc=a&b", "sort=id", "priority=P1"].Perm ["priority=P1", "cc=a&b", "sort=id"] := by decide
  obtain ⟨hcompiles, -⟩ := (ofArgs_of_last_values {} 0 _ _).1 hsame
  obtain ⟨hvalues, hreordered, -⟩ := (ofArgs_of_last_values {} 0 _ _).2 hperm (by decide +kernel)
  exact ⟨hsame, hperm, hcompiles, hvalues, hreordered⟩

end BugReport.Request
