import RouteContract.Proofs.Json.Pointer
import RouteContract.Proofs.Schema.Choking
import RouteContract.Proofs.Schema.Hop
import RouteContract.Proofs.Schema.Lookup

/-!
# The walk of coercion

Coercion walks through a value and a schema together. From each stop it turns to further ones: where
a reference leads, with the same value, or to the schemas of members and items, with a part of the
value (`Turns`). Neither the schema nor the value alone gets smaller on the way, since references
lead to larger schemas. But a hop uses up one of finitely many references, as long as none of them
leads back to itself, and every other turn takes a strictly smaller part of the value. So each walk
is finite, and coercion comes to an end (`coerce_ends`).

How it ends is known as well. A reference that leads nowhere leaves the part of the value as it is.
Coercion fails exactly where the walk comes to a stop that breaks it (`Breaks`), and a reference
whose pointer cannot be read is such a stop: that is a fault of its own, and not a reference that
leads nowhere.
-/

set_option autoImplicit false

namespace RouteContract.Schema

open RouteContract Json Pointer Relation

/-! ## Stops -/

/-- Where coercion takes a value to a schema, seen from a base address. -/
structure Stop where
  base : String
  schema : Json
  value : Json

/-- The schema of a stop. -/
def Stop.station (stop : Stop) : Station := ⟨stop.base, stop.schema⟩

/-- What coercion makes of the value at a stop. -/
def Stop.result (scope : Scope) (hops : Nat) (stop : Stop) : Except Fault Json :=
  coerceUnder scope hops stop.base stop.schema stop.value

/-- Coercion turns from one stop to another one, by steps into the value. -/
inductive Turns (scope : Scope) : Stop → List Step → Stop → Prop where
  | hop {base inside ref : String} {keywords : List (String × Json)} {target v : Json}
      (stated : localReference? keywords = some ref)
      (led : scope.lookup base ref = .ok (target, inside)) :
      Turns scope ⟨base, .obj keywords, v⟩ [] ⟨inside, target, v⟩
  | member {base name : String} {keywords members : List (String × Json)} {sub w : Json}
      (plain : localReference? keywords = none) (listed : (name, w) ∈ members)
      (found : memberSchema? keywords name = .ok (some sub)) :
      Turns scope ⟨base, .obj keywords, .obj members⟩ [.key name] ⟨base, sub, w⟩
  | item {base : String} {keywords : List (String × Json)} {items : List Json} {i : Nat}
      {sub w : Json} (plain : localReference? keywords = none) (itemAt : items[i]? = some w)
      (found : itemSchema? keywords i = some sub) :
      Turns scope ⟨base, .obj keywords, .arr items⟩ [.index i] ⟨base, sub, w⟩

/-- Coercion walks from one stop to another one. -/
inductive Walks (scope : Scope) : Stop → List Step → Stop → Prop where
  | here (stop : Stop) : Walks scope stop [] stop
  | on {first next last : Stop} {steps more : List Step} (turn : Turns scope first steps next)
      (walk : Walks scope next more last) : Walks scope first (steps ++ more) last

/-- What makes coercion fail at a stop: a reference that is looked up with a fault, a table of
members that cannot be read, or a text that cannot be read as an integer. -/
inductive Breaks (scope : Scope) : Stop → Fault → Prop where
  | reference {base ref : String} {keywords : List (String × Json)} {v : Json} {e : Fault}
      (stated : localReference? keywords = some ref) (lost : scope.lookup base ref = .error e)
      (other : e ≠ .unresolvable) : Breaks scope ⟨base, .obj keywords, v⟩ e
  | member {base : String} {keywords members : List (String × Json)} {entry : String × Json}
      {e : Fault} (plain : localReference? keywords = none) (listed : entry ∈ members)
      (unread : memberSchema? keywords entry.1 = .error e) :
      Breaks scope ⟨base, .obj keywords, .obj members⟩ e
  | single {base : String} {keywords : List (String × Json)} {v : Json} {e : Fault}
      (plain : localReference? keywords = none) (single : IsSingle v)
      (unread : coerceType (Table.get? keywords "type") v = .error e) :
      Breaks scope ⟨base, .obj keywords, v⟩ e

variable {scope : Scope} {hops : Nat} {stop first next last : Stop} {steps more : List Step}
  {e : Fault}

/-! ## Turns -/

/-- **A turn is a hop with the same value, or takes a strictly smaller part of it.** -/
theorem turns_cases (turn : Turns scope first steps next) :
    Hop scope first.station next.station ∧ next.value = first.value ∨
      IsPart next.schema first.schema ∧ IsPart next.value first.value ∧
        next.value.weight < first.value.weight := by
  cases turn with
  | hop stated led => exact .inl ⟨.follow stated led, rfl⟩
  | member _ listed found =>
      have lt := Json.weight_lt_weightMembers listed
      refine .inr ⟨memberSchema?_part found, .of_member listed, ?_⟩
      rw [Json.weight.eq_def (.obj _)]
      simp only at lt ⊢
      omega
  | item _ itemAt found =>
      have listed := List.mem_of_getElem? itemAt
      have le := Json.weight_le_weightItems listed
      refine .inr ⟨itemSchema?_part found, .of_item listed, ?_⟩
      rw [Json.weight.eq_def (.arr _)]
      simp only
      omega

/-- No reference that the walk comes to from a stop leads back to itself. -/
def IsGuarded (scope : Scope) (stop : Stop) : Prop :=
  ∀ steps later, Walks scope stop steps later →
    ¬ TransGen (Hop scope) later.station later.station

/-- So many references may still be followed from a stop. -/
structure Ready (scope : Scope) (hops : Nat) (stop : Stop) : Prop where
  mayHop : MayHop scope hops stop.station
  stands : IsPartOrText scope.root stop.schema
  guarded : IsGuarded scope stop

theorem IsGuarded.turn (guarded : IsGuarded scope first) (turn : Turns scope first steps next) :
    IsGuarded scope next := fun _ _ walk => guarded _ _ (.on turn walk)

namespace Ready

/-- Behind a hop one reference less may be followed. -/
theorem hop {fewer : Nat} (ready : Ready scope (fewer + 1) first)
    (turn : Turns scope first steps next) (hop : Hop scope first.station next.station) :
    Ready scope fewer next := by
  have guarded := ready.guarded.turn turn
  refine ⟨ready.mayHop.hop ready.stands hop (guarded _ _ (.here next)), ?_, guarded⟩
  obtain ⟨base, schema, v⟩ := first
  obtain ⟨inside, target, w⟩ := next
  cases hop with
  | follow _ led => exact lookup_part led

/-- With a part of the value all references may be followed again. -/
theorem part (ready : Ready scope hops first) (turn : Turns scope first steps next)
    (below : IsPart next.schema first.schema) : Ready scope scope.chainLimit next := by
  exact ⟨.start _, ready.stands.of_isPart below, ready.guarded.turn turn⟩

/-- **Every walk is finite.** -/
theorem acc {hops : Nat} {first : Stop} (ready : Ready scope hops first) :
    Acc (fun inner outer => ∃ steps, Turns scope outer steps inner) first := by
  refine .intro first fun next ⟨steps, turn⟩ => ?_
  rcases turns_cases turn with ⟨hop, same⟩ | ⟨below, -, lighter⟩
  · obtain ⟨fewer, more⟩ := ready.mayHop.exists_succ
    exact ((more ▸ ready).hop turn hop).acc
  · exact (ready.part turn below).acc
termination_by (first.value.weight, hops)
decreasing_by
  · rw [same, more]
    exact .right _ (Nat.lt_succ_self fewer)
  · exact .left _ _ lighter

end Ready

/-! ## How coercion fails -/

section Failure

variable {base : String} {keywords members : List (String × Json)} {v w : Json}

theorem coerceType_ne_endless (types : Option Json) (v : Json) :
    coerceType types v ≠ .error .endless := by
  intro failed
  cases ((coerceType_fails types v) _).1 failed |>.1

theorem namesContain_ne_endless {table : Json} {name : String} :
    namesContain table name ≠ .error .endless := by
  cases table <;> rintro ⟨⟩

theorem memberSchema?_ne_endless {name : String} :
    memberSchema? keywords name ≠ .error .endless := by
  rw [memberSchema?]
  split
  · next e _ failed =>
      rintro ⟨⟩
      exact namesContain_ne_endless failed
  · rintro ⟨⟩
  · rintro ⟨⟩
  · split <;> rintro ⟨⟩

theorem Breaks.ne_endless (breaks : Breaks scope stop e) : e ≠ .endless := by
  rintro rfl
  cases breaks with
  | reference _ lost _ => exact lookup_ne_endless lost
  | member _ _ unread => exact memberSchema?_ne_endless unread
  | single _ _ unread => exact coerceType_ne_endless _ _ unread

section Reference

variable {ref : String} (stated : localReference? keywords = some ref)
include stated

/-- A reference that leads nowhere leaves the value as it is. -/
theorem result_unresolvable (lost : scope.lookup base ref = .error .unresolvable) :
    (Stop.mk base (.obj keywords) v).result scope (hops + 1) = .ok v := by
  rw [Stop.result, coerceUnder.eq_def]
  simp only [stated, lost]

theorem result_lost (lost : scope.lookup base ref = .error e) (other : e ≠ .unresolvable) :
    (Stop.mk base (.obj keywords) v).result scope (hops + 1) = .error e := by
  rw [Stop.result, coerceUnder.eq_def]
  simp only [stated, lost]

theorem result_endless : (Stop.mk base (.obj keywords) v).result scope 0 = .error .endless := by
  rw [Stop.result, coerceUnder.eq_def]
  simp only [stated]

theorem result_hop {target : Json} {inside : String}
    (led : scope.lookup base ref = .ok (target, inside)) :
    (Stop.mk base (.obj keywords) v).result scope (hops + 1) =
      (Stop.mk inside target v).result scope hops :=
  coerceUnder_reference stated led

end Reference

/-- What makes coercion fail behind a turn makes it fail. -/
theorem fails_of_turn (turn : Turns scope first steps next)
    (failed : ∀ hops, ∃ e, next.result scope hops = .error e) (hops : Nat) :
    ∃ e, first.result scope hops = .error e := by
  cases turn with
  | hop stated led =>
      cases hops with
      | zero => exact ⟨.endless, result_endless stated⟩
      | succ fewer =>
          rw [result_hop stated led]
          exact failed fewer
  | @member base name keywords members sub w plain listed found =>
      rw [Stop.result, coerceUnder_obj plain]
      obtain ⟨e, below⟩ := failed scope.chainLimit
      have here : coerceMember scope base keywords (name, w) = .error e := by
        rw [coerceMember, found]
        exact map_eq_error_iff.2 below
      obtain ⟨e, all⟩ := mapUntilFault_fails listed here
      exact ⟨e, map_eq_error_iff.2 all⟩
  | @item base keywords items i sub w plain itemAt found =>
      rw [Stop.result, coerceUnder_arr plain]
      obtain ⟨e, below⟩ := failed scope.chainLimit
      have here : coerceItem scope base keywords (w, i) = .error e := by
        rw [coerceItem, found]
        exact below
      obtain ⟨e, all⟩ := mapUntilFault_fails (List.mem_zipIdx_iff_getElem?.2 itemAt) here
      exact ⟨e, map_eq_error_iff.2 all⟩

/-- **Coercion fails where its walk comes to a stop that breaks it.** -/
theorem fails_of_walks (walk : Walks scope first steps last) (breaks : Breaks scope last e)
    (hops : Nat) : ∃ e, first.result scope hops = .error e := by
  induction walk generalizing hops with
  | on turn _ ih => exact fails_of_turn turn (ih breaks) hops
  | here stop =>
      cases breaks with
      | reference stated lost other =>
          cases hops with
          | zero => exact ⟨.endless, result_endless stated⟩
          | succ fewer => exact ⟨e, result_lost stated lost other⟩
      | @member base keywords members entry _ plain listed unread =>
          rw [Stop.result, coerceUnder_obj plain]
          have here : coerceMember scope base keywords entry = .error e := by
            rw [coerceMember, unread]
          obtain ⟨e, all⟩ := mapUntilFault_fails listed here
          exact ⟨e, map_eq_error_iff.2 all⟩
      | single plain single unread =>
          exact ⟨e, by rw [Stop.result, coerceUnder_single plain single, unread]⟩

/-- What fails at a stop whose schema is no reference fails at a turn, or breaks the walk there. -/
theorem turn_of_fails (plain : localReference? keywords = none)
    (failed : (Stop.mk base (.obj keywords) v).result scope hops = .error e) :
    Breaks scope ⟨base, .obj keywords, v⟩ e ∨ ∃ steps next,
      Turns scope ⟨base, .obj keywords, v⟩ steps next ∧ IsPart next.schema (.obj keywords) ∧
        next.value.weight < v.weight ∧ next.result scope scope.chainLimit = .error e := by
  have turned {steps : List Step} {next : Stop}
      (turn : Turns scope ⟨base, .obj keywords, v⟩ steps next)
      (below : next.result scope scope.chainLimit = .error e) :
      ∃ steps next, Turns scope ⟨base, .obj keywords, v⟩ steps next ∧
        IsPart next.schema (.obj keywords) ∧ next.value.weight < v.weight ∧
          next.result scope scope.chainLimit = .error e := by
    rcases turns_cases turn with ⟨hop, -⟩ | ⟨inside, -, lighter⟩
    · obtain ⟨other, ref, same, stated⟩ := hop.stated
      cases same
      rw [plain] at stated
      cases stated
    · exact ⟨steps, next, turn, inside, lighter, below⟩
  rw [Stop.result] at failed
  rcases single_or_made_of v with single | ⟨items, rfl⟩ | ⟨members, rfl⟩
  · rw [coerceUnder_single plain single] at failed
    exact .inl (.single plain single failed)
  · rw [coerceUnder_arr plain, map_eq_error_iff] at failed
    obtain ⟨⟨w, i⟩, listed, there⟩ := exists_of_mapUntilFault_error failed
    rw [coerceItem] at there
    split at there
    · cases there
    · next sub found =>
        exact .inr (turned (.item plain (List.mem_zipIdx_iff_getElem?.1 listed) found) there)
  · rw [coerceUnder_obj plain, map_eq_error_iff] at failed
    obtain ⟨⟨name, w⟩, listed, there⟩ := exists_of_mapUntilFault_error failed
    rw [coerceMember] at there
    split at there
    · next unread =>
        cases there
        exact .inl (.member plain listed unread)
    · cases there
    · next sub found =>
        exact .inr (turned (.member plain listed found) (map_eq_error_iff.1 there))

/-- **Where coercion fails, its walk comes to a stop that breaks it.** -/
theorem exists_breaks {hops : Nat} {base : String} {schema v : Json}
    (ready : Ready scope hops ⟨base, schema, v⟩)
    (failed : (Stop.mk base schema v).result scope hops = .error e) :
    ∃ steps last, Walks scope ⟨base, schema, v⟩ steps last ∧ Breaks scope last e := by
  cases schema with
  | null | bool b | int i | float x | str s | arr items =>
      rw [Stop.result, coerceUnder.eq_def] at failed
      cases failed
  | obj keywords =>
      cases reference : localReference? keywords with
      | none =>
          rcases turn_of_fails reference failed with
            breaks | ⟨steps, next, turn, inside, lighter, below⟩
          · exact ⟨[], _, .here _, breaks⟩
          · obtain ⟨more, last, walk, breaks⟩ := exists_breaks (ready.part turn inside) below
            exact ⟨_, last, .on turn walk, breaks⟩
      | some ref =>
          obtain ⟨fewer, more⟩ := ready.mayHop.exists_succ
          cases led : scope.lookup base ref with
          | error fault =>
              by_cases leaves : fault = .unresolvable
              · rw [more, result_unresolvable reference (leaves ▸ led)] at failed
                cases failed
              · rw [more, result_lost reference led leaves] at failed
                cases failed
                exact ⟨[], _, .here _, .reference reference led leaves⟩
          | ok found =>
              obtain ⟨target, inside⟩ := found
              rw [more, result_hop reference led] at failed
              have turn : Turns scope ⟨base, .obj keywords, v⟩ [] ⟨inside, target, v⟩ :=
                .hop reference led
              obtain ⟨steps, last, walk, breaks⟩ :=
                exists_breaks ((more ▸ ready).hop turn (.follow reference led)) failed
              exact ⟨_, last, .on turn walk, breaks⟩
termination_by (v.weight, hops)
decreasing_by
  · exact .left _ _ lighter
  · rw [more]
    exact .right _ (Nat.lt_succ_self fewer)

end Failure

/-! ## What coercion leaves as it is -/

section Places

variable {w : Json}

/-- **What coercion makes of a part stands where the part stood.** -/
theorem at?_of_walks (walk : Walks scope first steps last)
    (distinct : first.value.hasDistinctNames = true) (done : first.result scope hops = .ok w) :
    ∃ hops u, last.result scope hops = .ok u ∧ w.at? steps = some u := by
  induction walk generalizing hops w with
  | here stop => exact ⟨hops, w, done, rfl⟩
  | on turn _ ih =>
      cases turn with
      | hop stated led =>
          cases hops with
          | zero =>
              rw [result_endless stated] at done
              cases done
          | succ fewer =>
              rw [result_hop stated led] at done
              exact ih distinct done
      | @member base name keywords members sub part plain listed found =>
          rw [Json.hasDistinctNames, Bool.and_eq_true, decide_eq_true_eq,
            membersHaveDistinctNames_iff] at distinct
          rw [Stop.result, coerceUnder_obj plain] at done
          obtain ⟨coerced, each, rfl⟩ := map_eq_ok_iff.1 done
          obtain ⟨u, here, there⟩ := get?_of_mapUntilFault (fun _ _ => coerceMember_name) each
            (Table.get?_eq_some_of_mem distinct.1 listed)
          simp only [coerceMember, found] at here
          obtain ⟨_, below, same⟩ := map_eq_ok_iff.1 here
          cases same
          obtain ⟨hops, u, below, place⟩ := ih (distinct.2 _ listed) below
          refine ⟨hops, u, below, ?_⟩
          rw [List.singleton_append, at?_cons, child?_obj_key, there, Option.bind_some, place]
      | @item base keywords items i sub part plain itemAt found =>
          rw [Json.hasDistinctNames, haveDistinctNames_iff] at distinct
          rw [Stop.result, coerceUnder_arr plain] at done
          obtain ⟨coerced, each, rfl⟩ := map_eq_ok_iff.1 done
          obtain ⟨u, here, there⟩ := getElem?_of_mapUntilFault each itemAt
          rw [Nat.zero_add, coerceItem, found] at here
          obtain ⟨hops, u, below, place⟩ := ih (distinct _ (List.mem_of_getElem? itemAt)) here
          refine ⟨hops, u, below, ?_⟩
          rw [List.singleton_append, at?_cons, child?_arr_index, there, Option.bind_some, place]

/-- A part that a reference leads nowhere for stays as it is. -/
theorem at?_of_unresolvable {base ref : String} {keywords : List (String × Json)} {part : Json}
    (walk : Walks scope first steps ⟨base, .obj keywords, part⟩)
    (distinct : first.value.hasDistinctNames = true) (done : first.result scope hops = .ok w)
    (stated : localReference? keywords = some ref)
    (lost : scope.lookup base ref = .error .unresolvable) : w.at? steps = some part := by
  obtain ⟨hops, u, here, place⟩ := at?_of_walks walk distinct done
  cases hops with
  | zero =>
      rw [result_endless stated] at here
      cases here
  | succ fewer =>
      rw [result_unresolvable stated lost] at here
      cases here
      exact place

end Places

/-! ## How coercion ends -/

/-- Where the walk of a whole value begins. -/
def startStop (document v : Json) : Stop := ⟨coercionAddress, document, v⟩

/-- **Coercion comes to an end**, if no reference that it comes to leads back to itself by references
alone. All its walks are finite: a turn is a hop along a reference or takes a strictly smaller part of
the value. It fails exactly where a walk comes to a stop that breaks it, and if it does not fail, a
part that a reference leads nowhere for stays as it is, where it is. -/
theorem coerce_ends {document v : Json}
    (guarded : IsGuarded (coercionScope document) (startStop document v)) :
    Acc (fun inner outer => ∃ steps, Turns (coercionScope document) outer steps inner)
        (startStop document v) ∧
      (∀ outer steps inner, Turns (coercionScope document) outer steps inner →
        Hop (coercionScope document) outer.station inner.station ∧ inner.value = outer.value ∨
          IsPart inner.value outer.value ∧ inner.value.weight < outer.value.weight) ∧
      coerce document v ≠ .error .endless ∧
      ((∃ e, coerce document v = .error e) ↔ ∃ steps stop e,
        Walks (coercionScope document) (startStop document v) steps stop ∧
          Breaks (coercionScope document) stop e) ∧
      ∀ w, coerce document v = .ok w → v.hasDistinctNames = true →
        ∀ steps base keywords part ref,
          Walks (coercionScope document) (startStop document v) steps
            ⟨base, .obj keywords, part⟩ →
          localReference? keywords = some ref →
          (coercionScope document).lookup base ref = .error .unresolvable →
          w.at? steps = some part := by
  have ready : Ready (coercionScope document) (chainLimit document) (startStop document v) :=
    ⟨.start _, .inl (.self _), guarded⟩
  refine ⟨ready.acc, ?_, ?_, ⟨?_, ?_⟩, ?_⟩
  · intro outer steps inner turn
    exact (turns_cases turn).imp_right And.right
  · intro failed
    obtain ⟨steps, last, -, breaks⟩ := exists_breaks ready failed
    exact breaks.ne_endless rfl
  · rintro ⟨e, failed⟩
    obtain ⟨steps, last, walk, breaks⟩ := exists_breaks ready failed
    exact ⟨steps, last, e, walk, breaks⟩
  · rintro ⟨steps, last, e, walk, breaks⟩
    exact fails_of_walks walk breaks _
  · intro w done distinct steps base keywords part ref walk stated lost
    exact at?_of_unresolvable walk distinct done stated lost

/-! ## Recursive schemas -/

/-- Where references lead from schemas of a higher rank to schemas of a lower one, none leads back to
itself. -/
theorem not_transGen_of_rank (scope : Scope) (rank : Station → Nat)
    (lower : ∀ x y, IsPartOrText scope.root x.schema → Hop scope x y → rank y < rank x)
    (x : Station) : ¬ TransGen (Hop scope) x x := by
  have target {x y : Station} (hop : Hop scope x y) : IsPartOrText scope.root y.schema := by
    cases hop with
    | follow _ led => exact lookup_part led
  have further {y : Station} (stands : IsPartOrText scope.root x.schema)
      (chain : TransGen (Hop scope) x y) :
      rank y < rank x ∧ IsPartOrText scope.root y.schema := by
    induction chain with
    | single hop => exact ⟨lower _ _ stands hop, target hop⟩
    | tail _ hop ih => exact ⟨(lower _ _ ih.2 hop).trans ih.1, target hop⟩
  intro cycle
  obtain ⟨y, -, hop⟩ := TransGen.tail'_iff.1 cycle
  exact Nat.lt_irrefl _ (further (target hop) cycle).1

/-- A schema for lists of sizes. The schema of the rest is found in two hops, and one member has a
reference that leads nowhere. -/
def sizesKeywords : List (String × Json) :=
  [("properties", .obj [
      ("size", .obj [("type", .str "integer")]),
      ("next", .obj [("$ref", .str "#/definitions/list")]),
      ("lost", .obj [("$ref", .str "#/nowhere")])]),
    ("definitions", .obj [("list", .obj [("$ref", .str "#")])])]

def sizesDocument : Json := .obj sizesKeywords

/-- How many hops a schema for lists of sizes is away from the document. -/
def sizesRank (x : Station) : Nat :=
  match x.schema with
  | .obj keywords =>
      match localReference? keywords with
      | some "#/definitions/list" => 2
      | some "#" => 1
      | _ => 0
  | _ => 0

theorem sizes_document : (coercionScope sizesDocument).lookup coercionAddress "#" =
    .ok (sizesDocument, coercionAddress) := by
  cbv

theorem sizes_list : (coercionScope sizesDocument).lookup coercionAddress "#/definitions/list" =
    .ok (.obj [("$ref", .str "#")], coercionAddress) := by
  have written : fragment ["definitions", "list"] = "#/definitions/list" := by cbv
  have plain : ∀ segment ∈ ["definitions", "list"], hasEscape segment.toList = false := by decide
  have led := lookup_fragment (coercionScope sizesDocument) ["definitions", "list"]
  rw [written, readSegments_of_plain plain] at led
  refine led.trans ?_
  exact (followSegments_quiet (stepInto_key rfl) fun _ => rfl).trans
    (followSegments_quiet (stepInto_key rfl) fun _ => rfl)

theorem sizes_nowhere : (coercionScope sizesDocument).lookup coercionAddress "#/nowhere" =
    .error .unresolvable := by
  cbv

theorem sizes_lower (x y : Station) (stands : IsPartOrText sizesDocument x.schema)
    (hop : Hop (coercionScope sizesDocument) x y) : sizesRank y < sizesRank x := by
  cases hop with
  | @follow base inside ref keywords target reference led =>
      obtain ⟨stated, isLocal⟩ := stated_of_localReference? reference
      have among : ref ∈ ["#/definitions/list", "#/nowhere", "#"] :=
        mem_referencesIn stands.part stated
      have there : base ∈ [coercionAddress] :=
        addresses_eq_of_unnamed (coercionScope sizesDocument) rfl ▸
          mem_addresses_of_lookup isLocal led
      rw [List.mem_singleton] at there
      subst there
      simp only [List.mem_cons, List.not_mem_nil, or_false] at among
      rcases among with rfl | rfl | rfl
      · rw [sizes_list] at led
        cases led
        simp only [sizesRank, reference]
        decide
      · rw [sizes_nowhere] at led
        cases led
      · rw [sizes_document] at led
        cases led
        simp only [sizesRank, reference]
        decide

/-- Two sizes as texts, and a member that no schema is found for. -/
def sizesValue : Json :=
  .obj [("size", .str "1"), ("next", .obj [("size", .str "2"), ("lost", .str "3")])]

def sizesCoerced : Json :=
  .obj [("size", .int 1), ("next", .obj [("size", .int 2), ("lost", .str "3")])]

theorem coerceMember_of_schema {base name : String} {keywords : List (String × Json)}
    {sub w u : Json} (found : memberSchema? keywords name = .ok (some sub))
    (below : coerceUnder scope scope.chainLimit base sub w = .ok u) :
    coerceMember scope base keywords (name, w) = .ok (name, u) := by
  rw [coerceMember, found]
  simp only [below]
  rfl

theorem coerceUnder_members {base : String} {keywords members coerced : List (String × Json)}
    (plain : localReference? keywords = none)
    (each : List.Forall₂ (fun member result => coerceMember scope base keywords member = .ok result)
      members coerced) :
    coerceUnder scope hops base (.obj keywords) (.obj members) = .ok (.obj coerced) := by
  rw [coerceUnder_obj plain]
  exact map_eq_ok_iff.2 ⟨coerced, mapUntilFault_eq_ok_iff.2 each, rfl⟩

theorem sizes_coerced : coerce sizesDocument sizesValue = .ok sizesCoerced := by
  have size {s : String} {i : Int}
      (read : coerceType (some (.str "integer")) (.str s) = .ok (.int i)) :
      coerceMember (coercionScope sizesDocument) coercionAddress sizesKeywords ("size", .str s) =
        .ok ("size", .int i) :=
    coerceMember_of_schema rfl ((coerceUnder_single rfl (isSingle_str s)).trans read)
  have lost : coerceMember (coercionScope sizesDocument) coercionAddress sizesKeywords
      ("lost", .str "3") = .ok ("lost", .str "3") :=
    coerceMember_of_schema rfl (result_unresolvable rfl sizes_nowhere)
  have rest : coerceUnder (coercionScope sizesDocument) 46 coercionAddress (.obj sizesKeywords)
      (.obj [("size", .str "2"), ("lost", .str "3")]) =
        .ok (.obj [("size", .int 2), ("lost", .str "3")]) :=
    coerceUnder_members rfl (.cons (size (by cbv)) (.cons lost .nil))
  have next : coerceMember (coercionScope sizesDocument) coercionAddress sizesKeywords
      ("next", .obj [("size", .str "2"), ("lost", .str "3")]) =
        .ok ("next", .obj [("size", .int 2), ("lost", .str "3")]) :=
    coerceMember_of_schema rfl
      (((result_hop rfl sizes_list).trans (result_hop rfl sizes_document)).trans rest)
  exact coerceUnder_members rfl (.cons (size (by cbv)) (.cons next .nil))

/-- **The sizes become integers, two hops further on too, and the member that no schema is found for
stays as it is.** -/
theorem sizes_end :
    (∀ x, ¬ TransGen (Hop (coercionScope sizesDocument)) x x) ∧
      Acc (fun inner outer => ∃ steps, Turns (coercionScope sizesDocument) outer steps inner)
        (startStop sizesDocument sizesValue) ∧
      coerce sizesDocument sizesValue = .ok sizesCoerced ∧
      Walks (coercionScope sizesDocument) (startStop sizesDocument sizesValue)
        [.key "next", .key "lost"]
        ⟨coercionAddress, .obj [("$ref", .str "#/nowhere")], .str "3"⟩ ∧
      sizesCoerced.at? [.key "next", .key "lost"] = some (.str "3") := by
  have acyclic := not_transGen_of_rank (coercionScope sizesDocument) sizesRank sizes_lower
  have walk : Walks (coercionScope sizesDocument) (startStop sizesDocument sizesValue)
      [.key "next", .key "lost"]
      ⟨coercionAddress, .obj [("$ref", .str "#/nowhere")], .str "3"⟩ :=
    .on (.member rfl (.tail _ (.head _)) rfl) <| .on (.hop rfl sizes_list) <|
      .on (.hop rfl sizes_document) <| .on (.member rfl (.tail _ (.head _)) rfl) (.here _)
  have guarded : IsGuarded (coercionScope sizesDocument) (startStop sizesDocument sizesValue) :=
    fun _ later _ => acyclic later.station
  obtain ⟨finite, -, -, -, stays⟩ := coerce_ends guarded
  exact ⟨acyclic, finite, sizes_coerced, walk,
    stays _ sizes_coerced (by decide) _ _ _ _ _ walk rfl sizes_nowhere⟩

/-- A schema with a reference to a member of a list that is named by a word. -/
def wordKeywords : List (String × Json) :=
  [("$ref", .str "#/allOf/x"), ("allOf", .arr [.obj [("type", .str "integer")]])]

theorem word_lookup : (coercionScope (.obj wordKeywords)).lookup coercionAddress "#/allOf/x" =
    .error .badNumeral := by
  have written : fragment ["allOf", "x"] = "#/allOf/x" := by cbv
  have plain : ∀ segment ∈ ["allOf", "x"], hasEscape segment.toList = false := by decide
  have led := lookup_fragment (coercionScope (.obj wordKeywords)) ["allOf", "x"]
  rw [written, readSegments_of_plain plain] at led
  have quiet : Quiet [some "allOf"] (.arr [.obj [("type", .str "integer")]]) :=
    fun names => absurd names (by decide)
  exact led.trans ((followSegments_quiet (stepInto_key rfl) quiet).trans (followSegments_fault rfl))

/-- **A reference that cannot be read is not one that leads nowhere.** There is no item of that name,
yet the value is not left as it is: coercion fails. -/
theorem word_fails (v : Json) :
    (Json.obj wordKeywords).resolve? "#/allOf/x" = none ∧
      coerce (.obj wordKeywords) v = .error .badNumeral :=
  ⟨by cbv, result_lost rfl word_lookup nofun⟩

end RouteContract.Schema
