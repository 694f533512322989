import Fcore.Lib.SortDedup
import Fcore.Memory.Subscription

/-!
# Entitlements

Which environments and protocols a subscription gets, from its plan and its
product. An environment that a product adds needs a template of protocols; a
product without one is refused, and nothing stands in for it.

An environment that is added replaces the one of the shared set, and of its template only
repetitions next to each other are dropped.
-/

namespace Fcore

structure MissingTemplate where
  product : Product
  env : Env
  deriving DecidableEq, Repr

def MissingTemplate.toText (e : MissingTemplate) : String :=
  "product '" ++ e.product.asStr ++ "' adds env '" ++ e.env.asStr ++
    "', but env_proto_templates has no (non-empty) template for it"

structure ConnResolver where
  enabledConns : Option (Table Env (List Tag))
  liteEnabledConns : Option (Table Env (List Tag))
  envProtoTemplates : Table Env (List Tag)

namespace ConnResolver

/-- The protocols of an environment that a product adds, without repetitions next to
each other. -/
def template (resolver : ConnResolver) (product : Product) (env : Env) :
    Except MissingTemplate (List Tag) :=
  match (resolver.envProtoTemplates.lookup env).filter fun tags => !tags.isEmpty with
  | some tags => .ok (tags.destutter (· ≠ ·))
  | none => .error ⟨product, env⟩

/-- The environments a product adds, on top of those it has already. -/
def addEnvs (resolver : ConnResolver) (product : Product) :
    List Env → Table Env (List Tag) → Except MissingTemplate (Table Env (List Tag))
  | [], resolved => .ok resolved
  | env :: envs, resolved =>
    match resolver.template product env with
    | .error e => .error e
    | .ok tags => resolver.addEnvs product envs (AList.insert env tags resolved)

/-- Nothing at all is an answer too: there are no shared connections. -/
def resolve (resolver : ConnResolver) (planKind : PlanKind) (product : Product) :
    Except MissingTemplate (Option (Table Env (List Tag))) :=
  match planKind with
  | .selfhosted => .ok none
  | .lite => .ok (resolver.liteEnabledConns.or resolver.enabledConns)
  | .premium | .standard =>
    let base := if product.includesStandard then resolver.enabledConns.getD ∅ else ∅
    match resolver.addEnvs product product.extraEnvs base with
    | .error e => .error e
    | .ok resolved => .ok (if resolved.entries.isEmpty then none else some resolved)

section Resolve

variable (resolver : ConnResolver) (product : Product)

/-- The protocols configured for an environment that products add, if any. -/
def tagsOf (env : Env) : List Tag :=
  (resolver.envProtoTemplates.lookup env).getD []

theorem template_cases (env : Env) :
    (resolver.tagsOf env = [] ∧ resolver.template product env = .error ⟨product, env⟩) ∨
      resolver.tagsOf env ≠ [] ∧ resolver.template product env =
        .ok ((resolver.tagsOf env).destutter (· ≠ ·)) := by
  unfold tagsOf template
  cases resolver.envProtoTemplates.lookup env with
  | none => exact .inl ⟨rfl, rfl⟩
  | some tags =>
    cases tags with
    | nil => exact .inl ⟨rfl, rfl⟩
    | cons tag tags => exact .inr ⟨List.cons_ne_nil tag tags, rfl⟩

theorem addEnvs_cases (envs : List Env) (resolved : Table Env (List Tag)) :
    ((∃ env ∈ envs, resolver.tagsOf env = []) ∧
      ∃ e, resolver.addEnvs product envs resolved = .error e) ∨
    (∀ env ∈ envs, resolver.tagsOf env ≠ []) ∧
      ∃ map, resolver.addEnvs product envs resolved = .ok map ∧ ∀ env, map.lookup env =
        if env ∈ envs then some ((resolver.tagsOf env).destutter (· ≠ ·))
        else resolved.lookup env := by
  induction envs generalizing resolved with
  | nil => exact .inr ⟨List.forall_mem_nil _, resolved, rfl, fun _ => rfl⟩
  | cons env envs ih =>
    rw [addEnvs]
    rcases resolver.template_cases product env with ⟨hnone, htemplate⟩ | ⟨hsome, htemplate⟩
    · rw [htemplate]
      exact .inl ⟨⟨env, List.mem_cons_self, hnone⟩, _, rfl⟩
    · rw [htemplate]
      rcases ih (AList.insert env ((resolver.tagsOf env).destutter (· ≠ ·)) resolved) with
        ⟨⟨env', henv', hnone⟩, herror⟩ | ⟨hall, map, hmap, hlookup⟩
      · exact .inl ⟨⟨env', List.mem_cons_of_mem env henv', hnone⟩, herror⟩
      · refine .inr ⟨List.forall_mem_cons.mpr ⟨hsome, hall⟩, map, hmap, fun env' => ?_⟩
        rw [hlookup, AList.lookup_insert_eq_ite]
        by_cases henv' : env' = env
        · simp [henv']
        · simp [henv']

/-- The shared connections that a product includes. -/
def shared : Table Env (List Tag) :=
  if product.includesStandard then resolver.enabledConns.getD ∅ else ∅

theorem resolve_cases {planKind : PlanKind} (hplan : planKind = .standard ∨ planKind = .premium) :
    ((∃ env ∈ product.extraEnvs, resolver.tagsOf env = []) ∧
      ∃ e, resolver.resolve planKind product = .error e) ∨
    (∀ env ∈ product.extraEnvs, resolver.tagsOf env ≠ []) ∧
      ∃ map, resolver.resolve planKind product =
          .ok (if map.entries.isEmpty then none else some map) ∧
        ∀ env, map.lookup env = if env ∈ product.extraEnvs
          then some ((resolver.tagsOf env).destutter (· ≠ ·))
          else (resolver.shared product).lookup env := by
  have hresolve : resolver.resolve planKind product =
      match resolver.addEnvs product product.extraEnvs (resolver.shared product) with
      | .error e => .error e
      | .ok resolved => .ok (if resolved.entries.isEmpty then none else some resolved) := by
    rcases hplan with rfl | rfl <;> rfl
  rcases resolver.addEnvs_cases product product.extraEnvs (resolver.shared product) with
    ⟨hmissing, e, he⟩ | ⟨hall, map, hmap, hlookup⟩
  · exact .inl ⟨hmissing, e, by rw [hresolve, he]⟩
  · exact .inr ⟨hall, map, by rw [hresolve, hmap], hlookup⟩

/-- What a plan is entitled to: lists without repetitions, every environment that the product
adds with its whole template, and the shared set if the product includes it. -/
structure Entitles (map : Table Env (List Tag)) : Prop where
  nodup : ∀ env tags, map.lookup env = some tags → tags.Nodup
  extra : ∀ env ∈ product.extraEnvs, ∃ tags, map.lookup env = some tags ∧
    ∀ tag ∈ resolver.tagsOf env, tag ∈ tags
  standard : ∀ env tags, (resolver.shared product).lookup env = some tags → ∀ tag ∈ tags,
    ∃ tags', map.lookup env = some tags' ∧ tag ∈ tags'

/-- The templates of the environments that a product adds are in order. -/
def TemplatesFit : Prop :=
  ∀ env ∈ product.extraEnvs,
    (∀ tag tag', tag ≠ tag' → ¬ [tag, tag', tag].Sublist (resolver.tagsOf env)) ∧
    ∀ tags, (resolver.shared product).lookup env = some tags → tags ⊆ resolver.tagsOf env

variable {resolver product}

theorem entitles_iff {map : Table Env (List Tag)}
    (hshared : ∀ env tags, (resolver.shared product).lookup env = some tags → tags.Nodup)
    (hlookup : ∀ env, map.lookup env = if env ∈ product.extraEnvs
      then some ((resolver.tagsOf env).destutter (· ≠ ·))
      else (resolver.shared product).lookup env) :
    resolver.Entitles product map ↔ resolver.TemplatesFit product := by
  constructor
  · intro h env henv
    have hmap := hlookup env
    rw [if_pos henv] at hmap
    refine ⟨nodup_destutter_ne.mp (h.nodup env _ hmap), fun tags htags tag htag => ?_⟩
    obtain ⟨tags', htags', htag'⟩ := h.standard env tags htags tag htag
    rw [hmap, Option.some.injEq] at htags'
    exact mem_destutter_ne.mp (htags' ▸ htag')
  · intro h
    constructor
    · intro env tags htags
      rw [hlookup] at htags
      split at htags
      case isTrue henv =>
        cases htags
        exact nodup_destutter_ne.mpr (h env henv).1
      case isFalse => exact hshared env tags htags
    · intro env henv
      exact ⟨_, (hlookup env).trans (if_pos henv), fun tag => mem_destutter_ne.mpr⟩
    · intro env tags htags tag htag
      by_cases henv : env ∈ product.extraEnvs
      · exact ⟨_, (hlookup env).trans (if_pos henv),
          mem_destutter_ne.mpr ((h env henv).2 tags htags htag)⟩
      · exact ⟨tags, ((hlookup env).trans (if_neg henv)).trans htags, htag⟩

/-- For a standard or premium plan the connections are as they should be, and there is an error
exactly if a template is missing, if and only if, unless a template is missing, no template
lists a protocol again after another one, and the template of an environment of the shared set
has all the protocols it has there. The other plans get no error. -/
theorem resolve_entitles_iff {planKind : PlanKind}
    (henabled : ∀ conns ∈ resolver.enabledConns, ∀ env tags, conns.lookup env = some tags →
      tags.Nodup) :
    (planKind = .standard ∨ planKind = .premium →
      ((∀ map, resolver.resolve planKind product = .ok (some map) →
          resolver.Entitles product map) ∧
        ((∃ e, resolver.resolve planKind product = .error e) ↔
          ∃ env ∈ product.extraEnvs, resolver.tagsOf env = []) ↔
      ((∀ env ∈ product.extraEnvs, resolver.tagsOf env ≠ []) →
        resolver.TemplatesFit product))) ∧
    (planKind = .selfhosted ∨ planKind = .lite →
      ∃ entitled, resolver.resolve planKind product = .ok entitled) := by
  have hshared : ∀ env tags, (resolver.shared product).lookup env = some tags → tags.Nodup := by
    intro env tags htags
    unfold shared at htags
    cases hconns : resolver.enabledConns with
    | none => simp [hconns] at htags
    | some conns =>
      split at htags
      · exact henabled conns hconns env tags (by rwa [hconns] at htags)
      · cases htags
  refine ⟨fun hplan => ?_, ?_⟩
  · rcases resolver.resolve_cases product hplan with
      ⟨hmissing, e, he⟩ | ⟨hall, map, hmap, hlookup⟩
    · refine ⟨fun _ hall => ?_, fun _ => ⟨fun map hmap => ?_, fun _ => hmissing, fun _ => ⟨e, he⟩⟩⟩
      · obtain ⟨env, henv, hnone⟩ := hmissing
        exact absurd hnone (hall env henv)
      · rw [he] at hmap
        cases hmap
    · have hno : ¬ ∃ env ∈ product.extraEnvs, resolver.tagsOf env = [] := by
        rintro ⟨env, henv, hnone⟩
        exact hall env henv hnone
      constructor
      · rintro ⟨hentitles, -⟩ - env henv
        have hentry : map.entries.isEmpty = false := by
          have hmem := AList.mem_lookup_iff.mp ((hlookup env).trans (if_pos henv))
          exact List.isEmpty_eq_false_iff.mpr (List.ne_nil_of_mem hmem)
        rw [hentry] at hmap
        exact (entitles_iff hshared hlookup).mp (hentitles map hmap) env henv
      · intro hfit
        refine ⟨fun map' hmap' => ?_, fun ⟨e, he⟩ => ?_, fun h => absurd h hno⟩
        · rw [hmap] at hmap'
          split at hmap'
          · cases hmap'
          · cases hmap'
            exact (entitles_iff hshared hlookup).mpr (hfit hall)
        · rw [hmap] at he
          cases he
  · rintro (rfl | rfl)
    · exact ⟨_, rfl⟩
    · exact ⟨_, rfl⟩

end Resolve

/-- The gaming environment is shared with one protocol, and has a template of its own. -/
def gamingTemplate (tags : List Tag) : ConnResolver where
  enabledConns := some (AList.insert .gaming [.amneziaWg] ∅)
  liteEnabledConns := none
  envProtoTemplates := AList.insert .gaming tags ∅

theorem not_entitles_interleaved :
    ¬ ∀ map, (gamingTemplate [.amneziaWg, .vmess, .amneziaWg]).resolve .standard .gaming =
        .ok (some map) →
      (gamingTemplate [.amneziaWg, .vmess, .amneziaWg]).Entitles .gaming map := by
  intro h
  have hnodup := (h _ rfl).nodup .gaming [.amneziaWg, .vmess, .amneziaWg] rfl
  exact absurd hnodup (by decide)

theorem resolve_entitles_doubled :
    ∃ map, (gamingTemplate [.amneziaWg, .amneziaWg]).resolve .standard .standardGaming =
        .ok (some map) ∧
      (gamingTemplate [.amneziaWg, .amneziaWg]).Entitles .standardGaming map := by
  refine ⟨_, rfl, (((resolve_entitles_iff ?_).1 (.inl rfl)).mpr fun _ => ?_).1 _ rfl⟩
  · rintro conns ⟨⟩ env tags htags
    rw [AList.lookup_insert_eq_ite] at htags
    split at htags
    · cases htags
      exact List.nodup_singleton _
    · cases htags
  · intro env henv
    cases List.mem_singleton.mp henv
    refine ⟨fun _ _ _ h => absurd h.length_le (Nat.lt_irrefl 2), ?_⟩
    decide

end ConnResolver

end Fcore
