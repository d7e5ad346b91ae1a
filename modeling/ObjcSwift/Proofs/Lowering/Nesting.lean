import ObjcSwift.Proofs.Lowering.Visits

/-!
# What belongs to a type, and to a region

Two things around a node decide what becomes of it, and both can be said of the list of visited
nodes alone.

* A member belongs to the innermost type around it. The nodes that belong to a type (`Visit.own`)
  are the visited nodes inside it with **one type more** around them than the type has; what the
  type declares, and what they declare for it, are `Visit.typeDecl?` and `Visit.members`.
* A region begins and ends anywhere, also inside types. Whether pointers are nonnull by default at a
  node depends on the **last of the two markers** visited before it (`ObjcNode.nonnull_iff_marker`).
-/

namespace ObjcSwift

/-! ### Inside a node -/

namespace Visit

variable (v : Visit)

/-- How many types are around the node. -/
def depth : Nat :=
  v.enclosing.countP ObjcNode.declaresType

/-- The visits of the nodes inside the node, if it was understood. -/
def below : List Visit :=
  (ObjcNode.visitsAll (v.node :: v.enclosing) (v.node.nonnullAfter v.nonnull) v.node.children).1

/-- The visits of the nodes whose innermost type is the node. -/
def own : List Visit :=
  v.below.filter fun w => w.depth == v.depth + 1

end Visit

namespace ObjcNode

mutual

/-- What is around a tree is around all nodes in it. -/
theorem suffix_visits : ∀ (n : ObjcNode) (enclosing : List ObjcNode) (nonnull : Bool),
    ∀ v ∈ (n.visits enclosing nonnull).1, enclosing <:+ v.enclosing
  | ⟨kind, span, children⟩, enclosing, nonnull => by
    intro v hv
    rcases List.mem_cons.mp hv with rfl | hv
    · exact List.suffix_refl enclosing
    · split_ifs at hv with hunknown
      · exact absurd hv (by simp)
      · exact (List.suffix_cons _ enclosing).trans (suffix_visitsAll children _ _ v hv)

theorem suffix_visitsAll : ∀ (ns : List ObjcNode) (enclosing : List ObjcNode) (nonnull : Bool),
    ∀ v ∈ (visitsAll enclosing nonnull ns).1, enclosing <:+ v.enclosing
  | [], enclosing, nonnull => fun v hv => absurd hv (by simp [visitsAll])
  | n :: ns, enclosing, nonnull => by
    intro v hv
    simp only [visitsAll, List.mem_append] at hv
    rcases hv with hv | hv
    · exact suffix_visits n enclosing nonnull v hv
    · exact suffix_visitsAll ns enclosing _ v hv

end

mutual

/-- The nodes inside a node are visited right after it. -/
theorem infix_visits : ∀ (n : ObjcNode) (enclosing : List ObjcNode) (nonnull : Bool),
    ∀ v ∈ (n.visits enclosing nonnull).1, v.node.isUnknown = false →
      v :: v.below <:+: (n.visits enclosing nonnull).1
  | ⟨kind, span, children⟩, enclosing, nonnull => by
    intro v hv hknown
    rw [visits] at hv ⊢
    rcases List.mem_cons.mp hv with rfl | hv
    · rw [if_neg (by rw [hknown]; exact Bool.false_ne_true)]
      exact List.infix_refl _
    · split_ifs at hv ⊢ with hunknown
      · exact absurd hv (by simp)
      · exact (infix_visitsAll children _ _ v hv hknown).trans (List.suffix_cons _ _).isInfix

theorem infix_visitsAll : ∀ (ns : List ObjcNode) (enclosing : List ObjcNode) (nonnull : Bool),
    ∀ v ∈ (visitsAll enclosing nonnull ns).1, v.node.isUnknown = false →
      v :: v.below <:+: (visitsAll enclosing nonnull ns).1
  | [], enclosing, nonnull => fun v hv => absurd hv (by simp [visitsAll])
  | n :: ns, enclosing, nonnull => by
    intro v hv hknown
    simp only [visitsAll, List.mem_append] at hv ⊢
    rcases hv with hv | hv
    · exact (infix_visits n enclosing nonnull v hv hknown).trans (List.prefix_append _ _).isInfix
    · exact (infix_visitsAll ns enclosing _ v hv hknown).trans (List.suffix_append _ _).isInfix

end

end ObjcNode

theorem Visit.depth_lt_of_mem_below {v w : Visit} (hv : v.node.declaresType = true)
    (hw : w ∈ v.below) : v.depth < w.depth := by
  have hsuffix := ObjcNode.suffix_visitsAll _ _ _ w hw
  have hle := hsuffix.sublist.countP_le (p := ObjcNode.declaresType)
  rw [List.countP_cons_of_pos hv] at hle
  exact hle

/-! ### What nodes declare -/

/-- A declaration without what nodes inside or beside its own node say about it: what it lists, the
directives of a file, the superclass of a class and the access of an instance variable. -/
def Decl.plain : Decl → Decl
  | file d => file { sourcePath := d.sourcePath, targetPath := d.targetPath, header := d.header }
  | type d =>
    type
      { name := d.name
        kind := match d.kind with
          | .classDecl _ => .classDecl none
          | kind => kind
        header := d.header }
  | ivar d => ivar { d with header := { d.header with access := .module } }
  | d => d

namespace Visit

variable (path : String) (v : Visit)

/-- What every declaration that comes from the node carries. -/
def header : Header :=
  { source := some ⟨some path, v.node.kind.label, v.node.span⟩, nonnull := v.nonnull }

/-- The type that the node declares. -/
def typeDecl? : Option TypeDecl :=
  match v.node.kind with
  | .classInterface name | .classImplementation name =>
    some { name, kind := .classDecl none, header := v.header path }
  | .classCategory name category _ =>
    some { name, kind := .extensionDecl category, header := v.header path }
  | .protocolDeclaration name => some { name, kind := .protocolDecl, header := v.header path }
  | _ => none

/-- The type that `instancetype` stands for inside the node; inside a protocol it stands for
none. -/
def selfName? : Option String :=
  match v.node.kind with
  | .classInterface name | .classImplementation name | .classCategory name _ _ => some name
  | _ => none

/-- The members that the node declares for the type around it, given what `instancetype` stands for
there. -/
def members (self : Option String) : List Decl :=
  match v.node.kind with
  | .protocolReferences protocols =>
    protocols.map fun name => .conformance { name, header := v.header path }
  | .propertyDefinition name type attributes =>
    let words := attributes.map PropertyAttribute.parse
    let storage : Storage :=
      { type := type.toSwift (.ofAttributes attributes v.nonnull)
        ownership := type.ownership attributes }
    [.property
      { name, storage, attributes := words, isStatic := words.contains (.word "class")
        header := v.header path }]
  | .methodDefinition method =>
    [.method
      { signature := (⟨v.nonnull, self⟩ : SignaturePlace).ofMethod method
        code := method.body.map fun body => ⟨body, (v.header path).source⟩
        header := v.header path }]
  | .ivarDeclaration name type =>
    let storage : Storage :=
      { type := type.toSwift { nonnull := v.nonnull }, ownership := type.ownership [] }
    [.ivar { name, storage, header := v.header path }]
  | _ => []

/-- The members that some nodes declare for one list of the type around them. -/
def membersIn (self : Option String) (list : ChildList) (vs : List Visit) : List Decl :=
  (vs.flatMap (members path · self)).filter fun d => d.ownList? == some list

theorem membersIn_append (self : Option String) (list : ChildList) (vs ws : List Visit) :
    membersIn path self list (vs ++ ws) =
      membersIn path self list vs ++ membersIn path self list ws := by
  simp [membersIn]

/-- What the node is lowered to, with the region of each declaration. -/
def entries : List (Option (Origin × Bool)) :=
  (v.lowered path).map fun o => some (o, v.nonnull)

variable {v}

theorem members_of_declaresType (h : v.node.declaresType = true) (self : Option String) :
    v.members path self = [] := by
  unfold members
  unfold ObjcNode.declaresType at h
  cases hk : v.node.kind <;> simp [hk] at h ⊢

end Visit

/-! ### Regions -/

/-- What a marker says about the region after it. -/
def ObjcNode.marker? (n : ObjcNode) : Option Bool :=
  match n.kind with
  | .identifier name =>
    if name = nonnullBegin then some true else if name = nonnullEnd then some false else none
  | _ => none

theorem ObjcNode.nonnullAfter_eq (n : ObjcNode) (nonnull : Bool) :
    n.nonnullAfter nonnull = n.marker?.getD nonnull := by
  unfold nonnullAfter marker?
  cases n.kind with
  | identifier name =>
    dsimp only
    split_ifs <;> rfl
  | _ => rfl

namespace Visit

/-- Whether pointers are nonnull by default after some visited nodes. -/
def regionAfter (nonnull : Bool) (vs : List Visit) : Bool :=
  vs.foldl (fun nonnull v => v.node.nonnullAfter nonnull) nonnull

/-- Each visited node is told the region that the nodes before it have left. -/
def Threaded (nonnull : Bool) : List Visit → Prop
  | [] => True
  | v :: vs => v.nonnull = nonnull ∧ Threaded (v.node.nonnullAfter nonnull) vs

variable {nonnull : Bool}

theorem threaded_append {vs ws : List Visit} : Threaded nonnull (vs ++ ws) ↔
    Threaded nonnull vs ∧ Threaded (regionAfter nonnull vs) ws := by
  induction vs generalizing nonnull with
  | nil => simp [Threaded, regionAfter]
  | cons v vs ih => simp only [List.cons_append, Threaded, ih, regionAfter, List.foldl_cons,
      and_assoc]

/-- **The last marker decides.** -/
theorem regionAfter_eq (vs : List Visit) :
    regionAfter nonnull vs = ((vs.filterMap (·.node.marker?)).getLast?).getD nonnull := by
  induction vs using List.reverseRecOn with
  | nil => rfl
  | append_singleton vs v ih =>
    rw [regionAfter, List.foldl_append, List.foldl_cons, List.foldl_nil, ← regionAfter, ih,
      ObjcNode.nonnullAfter_eq, List.filterMap_append]
    cases hv : v.node.marker? <;> simp [hv]

end Visit

namespace ObjcNode

open Visit

mutual

theorem threaded_visits : ∀ (n : ObjcNode) (enclosing : List ObjcNode) (nonnull : Bool),
    Threaded nonnull (n.visits enclosing nonnull).1 ∧
      (n.visits enclosing nonnull).2 = regionAfter nonnull (n.visits enclosing nonnull).1
  | ⟨kind, span, children⟩, enclosing, nonnull => by
    rw [visits]
    -- Nothing is visited inside a node that was not understood.
    split_ifs with hunknown
    · exact ⟨⟨rfl, trivial⟩, rfl⟩
    · obtain ⟨hthreaded, hafter⟩ := threaded_visitsAll children
        (⟨kind, span, children⟩ :: enclosing) (nonnullAfter ⟨kind, span, children⟩ nonnull)
      exact ⟨⟨rfl, hthreaded⟩, hafter⟩

theorem threaded_visitsAll : ∀ (ns : List ObjcNode) (enclosing : List ObjcNode) (nonnull : Bool),
    Threaded nonnull (visitsAll enclosing nonnull ns).1 ∧
      (visitsAll enclosing nonnull ns).2 = regionAfter nonnull (visitsAll enclosing nonnull ns).1
  | [], enclosing, nonnull => ⟨trivial, rfl⟩
  | n :: ns, enclosing, nonnull => by
    obtain ⟨hfirst, hafter⟩ := threaded_visits n enclosing nonnull
    obtain ⟨hothers, hend⟩ := threaded_visitsAll ns enclosing (n.visits enclosing nonnull).2
    rw [visitsAll]
    refine ⟨threaded_append.mpr ⟨hfirst, hafter ▸ hothers⟩, ?_⟩
    rw [hend, hafter, regionAfter, regionAfter, regionAfter,
      List.foldl_append]

end

/-- **Pointers are nonnull by default at a node exactly if the last marker visited before it begins
a region.** -/
theorem nonnull_iff_marker {n : ObjcNode} {before after : List Visit} {v : Visit}
    (h : (n.visits [] false).1 = before ++ v :: after) :
    v.nonnull = true ↔ (before.filterMap (·.node.marker?)).getLast? = some true := by
  have hthreaded := (threaded_visits n [] false).1
  rw [h, threaded_append] at hthreaded
  rw [hthreaded.2.1, regionAfter_eq]
  cases (before.filterMap (·.node.marker?)).getLast? <;> simp

end ObjcNode

end ObjcSwift
