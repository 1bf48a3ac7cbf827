/-
What an interpretation takes from the package.

A comment means the same in two packages, or in a package and in none, if no interpreter tells them
apart (`AgreesIn`, `ofComment_inPackage`).  The interpreters known by default look at the package for
one thing only, the slug of its name, which they put in front of namespaces
(`agreesIn_of_mem_builtin`).
-/
import DocComment.Proofs.Configuration
import DocComment.Proofs.Interpretation.Context
import DocComment.Proofs.Interpretation.Identifier

namespace DocComment

/-- The same context in another package, or in none. -/
def Context.inPackage (ctx : Context) (package : Option Package) : Context :=
  { ctx with package }

theorem Context.rendersAlike_inPackage (ctx : Context) (package package' : Option Package) :
    (ctx.inPackage package).RendersAlike (ctx.inPackage package') :=
  ⟨rfl, rfl, rfl, rfl⟩

namespace Interpretation

/-- What the package puts in front of a namespace. -/
def packageSlug (package : Option Package) : Text :=
  Slug.dottedOf (Tag.scopeDotted ((package.bind Package.name).getD "").toList)

theorem packageSlug_none : packageSlug none = [] := by decide

/-- The interpreter does not tell the packages apart. -/
def AgreesIn (package package' : Option Package) (i : Interpreter) : Prop :=
  ∀ (ctx : Context) (es : List Entry),
    i (ctx.inPackage package) es = i (ctx.inPackage package') es

variable {registry : Registry} {package package' : Option Package}

/-! ### Interpreters -/

theorem agreesIn_namespace (hslug : packageSlug package = packageSlug package') :
    AgreesIn package package' Tag.namespace_ := by
  intro ctx es
  have hspelled : ∀ s, Tag.namespaceOf package s = Tag.namespaceOf package' s := by
    intro s
    rw [namespaceOf_eq_ofList, namespaceOf_eq_ofList]
    exact congrArg (fun slug => String.ofList (Slug.joinDot slug (Slug.dottedOf s.toList))) hslug
  have hpackage (package : Option Package) : (ctx.inPackage package).package = package := rfl
  simp only [Tag.namespace_, hpackage, hspelled]

/-- No interpreter known by default tells packages with the same slug apart. -/
theorem agreesIn_of_mem_builtin (hslug : packageSlug package = packageSlug package')
    {p : String × Interpreter} (h : p ∈ Registry.builtin) : AgreesIn package package' p.2 := by
  -- all but one do not look at the package at all
  have htable : ∀ q ∈ Tag.ownInterpreters, AgreesIn package package' q.2 := by
    simp only [Tag.ownInterpreters, List.forall_mem_cons]
    and_intros
    all_goals
      first
      | exact agreesIn_namespace hslug
      | exact fun _ _ => rfl
      | simp
  rcases mem_builtin h with h | h
  · exact htable p h
  · rw [h]
    exact fun _ _ => rfl

/-- A tag without an interpreter of its own is read without a look at the package. -/
theorem agreesIn_interpreterOf (h : ∀ p ∈ registry, AgreesIn package package' p.2) (tag : String) :
    AgreesIn package package' (interpreterOf registry tag) := by
  rcases interpreterOf_cases registry tag with hmem | hsimple
  · exact h _ hmem
  · rw [hsimple]
    exact fun _ _ => rfl

/-- A comment means the same in packages that no interpreter tells apart, and fails in the same
way. -/
theorem ofComment_inPackage (ctx : Context)
    (h : ∀ p ∈ registry, AgreesIn package package' p.2) :
    Block.ofComment registry (ctx.inPackage package) =
      Block.ofComment registry (ctx.inPackage package') := by
  funext comment
  exact ofComment_congr (ctx.rendersAlike_inPackage package package') fun p _ =>
    agreesIn_interpreterOf h p.1 ctx p.2

end Interpretation

end DocComment
