import Fcore.Config.Link
import Fcore.Postgres.Db

/-!
# The share feed of the WireGuard family

A user shares a connection under a label of their choice, and the recipient
imports the configuration text served for the share token. The label has been
trimmed and bounded in length on the way in, and it ends up in the comment that
names the connection.

Neither normalizer looks inside the label. The main result gives the labels that
leave the directives of the served text alone: those whose every further line is
blank or a comment. A label with an inner line break can add a directive of the
sharing user's making to the recipient's configuration.
-/

namespace Fcore

def normalizeShareLabel (label : String) : Except String String :=
  let trimmed := Text.trim label
  let len := trimmed.length
  if len = 0 ∨ 64 < len then .error "label must be 1..=64 characters" else .ok trimmed

structure ConnCreateRequest where
  label : Option String
  deriving DecidableEq, Repr

namespace ConnCreateRequest

def normalizedLabel (req : ConnCreateRequest) : Option String :=
  (req.label.map Text.trim).filter fun label => label ≠ ""

def validate (req : ConnCreateRequest) : Except String Unit :=
  match req.normalizedLabel with
  | some label =>
    if 64 < label.length then .error "label must be 1..=64 characters" else .ok ()
  | none => .ok ()

end ConnCreateRequest

def connLinkLabel (labels : Table Uuid String) (connId : Uuid) (nodeLabel : String) : String :=
  match labels.lookup connId with
  | some label => label ++ " | " ++ nodeLabel
  | none => nodeLabel

def shareFeedIsRawIni : Tag → Bool
  | .wireguard | .amneziaWg | .amneziaWgMobile => true
  | _ => false

def pickShareNode (candidates : List (Uuid × Bool × Bool)) : Option Uuid :=
  (candidates.find? fun c => c.2.1 && c.2.2).map fun c => c.1

def nodeCandidates (nodes : List Node) (proto : Tag) : List (Uuid × Bool × Bool) :=
  nodes.map fun n => (n.uuid, decide (n.status = .online), (n.inbounds.lookup proto).isSome)

def envServingNode (nodes : List Node) (proto : Tag) : Option Uuid :=
  pickShareNode (nodeCandidates nodes proto)

section Feed

variable (b : Backend)
variable (uriLink : Inbound → Uuid → Conn → String → String → String → Except String String)

/-- The text served for a connection from one inbound of a node. -/
def shareLinkText (labels : Table Uuid String) (connId : Uuid) (conn : Conn) (node : Node)
    (inbound : Inbound) : Except String String :=
  inbound.createLink b uriLink connId conn node.hostname
    (node.connectionHost fun ip => b.ipText (.v4 ip))
    (connLinkLabel labels connId (node.cluster.getD node.label))

/-- The INI branch of the feed for a token row that was found and is not
revoked. -/
def shareFeedIni (mem : Cache) (row : ShareTokenRow) : Option String :=
  match mem.connections.lookup row.connectionId with
  | none => none
  | some child =>
    if child.isDeleted then none
    else
      let proto := child.proto.proto
      let nodeId := match row.nodeId with
        | some id => some id
        | none => (mem.nodes.getByEnv child.env).bind fun nodes => envServingNode nodes proto
      match nodeId.bind mem.nodes.getById with
      | none => none
      | some node =>
        if node.status = .online then
          match node.inbounds.lookup proto with
          | some inbound =>
            (shareLinkText b uriLink mem.connLabels row.connectionId child node
              inbound).toOption
          | none => none
        else none

/-- The node a token of the WireGuard family is served from. -/
def shareIniNode (mem : Cache) (row : ShareTokenRow) (child : Conn) : Option Node :=
  (match row.nodeId with
    | some id => some id
    | none => (mem.nodes.getByEnv child.env).bind fun nodes =>
      envServingNode nodes child.proto.proto).bind mem.nodes.getById

variable {b uriLink} in
/-- What the feed serves is the text of the selected node and its inbound. -/
theorem shareFeedIni_eq_some_iff {mem : Cache} {row : ShareTokenRow} {text : String} {child : Conn}
    (hchild : mem.connections.lookup row.connectionId = some child)
    (hlive : child.isDeleted = false) :
    shareFeedIni b uriLink mem row = some text ↔
      ∃ node inbound, shareIniNode mem row child = some node ∧ node.status = .online ∧
        node.inbounds.lookup child.proto.proto = some inbound ∧
        shareLinkText b uriLink mem.connLabels row.connectionId child node inbound = .ok text := by
  simp only [shareFeedIni, shareIniNode, hchild, hlive, Bool.false_eq_true, if_false]
  generalize Option.bind _ mem.nodes.getById = found
  cases found with
  | none => simp
  | some node =>
    by_cases honline : node.status = .online
    · cases hinbound : node.inbounds.lookup child.proto.proto with
      | none => simp [honline, hinbound]
      | some inbound =>
        cases hlink : shareLinkText b uriLink mem.connLabels row.connectionId child node
          inbound <;> simp [honline, hinbound, hlink, Except.toOption]
    · simp [honline]

theorem createLink_labelComment {inbound : Inbound} (htag : shareFeedIsRawIni inbound.tag = true)
    {connId : Uuid} {conn : Conn} {hostname host label text : String}
    (h : inbound.createLink b uriLink connId conn hostname host label = .ok text) :
    Nonempty (Inbound.LabelComment fun label =>
      inbound.createLink b uriLink connId conn hostname host label) := by
  unfold Inbound.createLink at h ⊢
  cases ht : inbound.tag with
  | wireguard =>
    rw [ht] at h
    exact Inbound.wireguard_labelComment h
  | amneziaWg =>
    rw [ht] at h
    exact Inbound.amneziawg_labelComment h
  | amneziaWgMobile =>
    rw [ht] at h
    exact Inbound.amneziawg_labelComment h
  | _ => simp [ht, shareFeedIsRawIni] at htag

end Feed

theorem follows_bar (text : List Char) :
    ∃ first, Text.Follows (' ' :: '|' :: text) first := by
  have hblank : ∀ line, Text.isBlank (' ' :: '|' :: line) = false := by
    intro line
    simp [Text.isBlank, show Text.isWhitespace '|' = false by decide]
  have hcomment : ∀ line, Text.isComment (' ' :: '|' :: line) = false := by
    intro line
    simp [Text.isComment, show Text.isWhitespace '|' = false by decide,
      show Text.isWhitespace ' ' = true by decide]
  rcases Text.line_cases text with h | ⟨line, rest, h, rfl⟩
  · exact ⟨' ' :: '|' :: text, by simpa using h, hblank _, hcomment _, .inl rfl⟩
  · exact ⟨' ' :: '|' :: line, by simpa using h, hblank _, hcomment _, .inr ⟨rest, rfl⟩⟩

/-- In a rendering that keeps its label in a comment, a device label in front of
the node label changes no directive exactly when it is harmless. -/
theorem labelComment_directives_iff {render : String → Except String String}
    (c : Inbound.LabelComment render) (nodeLabel label plain : String)
    (hplain : '\n' ∉ plain.toList) :
    ∃ text text', render (label ++ " | " ++ nodeLabel) = .ok text ∧
      render (plain ++ " | " ++ nodeLabel) = .ok text' ∧
      (Text.directives text.toList = Text.directives text'.toList ↔
        Text.Harmless label.toList) := by
  refine ⟨_, _, c.render_eq _, c.render_eq _, ?_⟩
  obtain ⟨first, hfirst⟩ := follows_bar (' ' :: (nodeLabel.toList ++ c.suffix.toList))
  have hsplit : ∀ l : String,
      (c.body ++ "\n" ++ c.mark ++ (l ++ " | " ++ nodeLabel) ++ c.suffix).toList =
        c.body.toList ++ '\n' :: (c.mark.toList ++ l.toList ++
          (' ' :: '|' :: ' ' :: (nodeLabel.toList ++ c.suffix.toList))) := by
    intro l
    simp
  rw [hsplit, hsplit, Text.directives_append_newline, Text.directives_append_newline,
    List.append_cancel_left_eq,
    Text.directives_splice_iff c.mark_single c.mark_comment hfirst hplain]

/-- The configuration served under a label has the directives it would have under
the label `x` exactly when every line of the label after its first is blank or a
comment and the last of them, which the node label continues, is a comment. -/
theorem shareLinkText_directives_iff (b : Backend)
    (uriLink : Inbound → Uuid → Conn → String → String → String → Except String String)
    (labels : Table Uuid String) (connId : Uuid) (conn : Conn) (node : Node) (inbound : Inbound)
    (label text : String) (htag : shareFeedIsRawIni inbound.tag = true)
    (htext : shareLinkText b uriLink (AList.insert connId "x" labels) connId conn node inbound =
      .ok text) :
    ∃ text', shareLinkText b uriLink (AList.insert connId label labels) connId conn node inbound =
        .ok text' ∧
      (Text.directives text'.toList = Text.directives text.toList ↔
        Text.Harmless label.toList) := by
  obtain ⟨c⟩ := createLink_labelComment b uriLink htag htext
  obtain ⟨text', plain, htext', hplain, hiff⟩ :=
    labelComment_directives_iff c (node.cluster.getD node.label) label "x" (by decide)
  have heq : plain = text := by
    have h := hplain.symm.trans (by simpa [shareLinkText, connLinkLabel] using htext)
    exact Except.ok.inj h
  subst heq
  exact ⟨text', by simpa [shareLinkText, connLinkLabel] using htext', hiff⟩

def shareInbound : Inbound where
  tag := .wireguard
  port := 51820
  wg := some ⟨"wg0", ⟨.v4 0, 24⟩, 51820, ⟨"server"⟩, [], none⟩
  awg := none

def shareConn : Conn :=
  .new .dev none (.wireguard ⟨⟨"client"⟩, ⟨.v4 0, 32⟩⟩) none 0

/-- The text served to the recipient of `shareConn` under a label. -/
def shareText (label : String) : Except String String :=
  shareLinkText constantBackend (fun _ _ _ _ _ _ => .error "") (AList.insert 5 label ∅) 5 shareConn
    (.bare 1 .dev) shareInbound

/-- A label of one line leaves the configuration alone. -/
theorem shareText_single_line :
    ∃ text text', shareText "x" = .ok text ∧ shareText "Mum phone" = .ok text' ∧
      Text.directives text'.toList = Text.directives text.toList := by
  obtain ⟨text', htext', hiff⟩ := shareLinkText_directives_iff constantBackend
    (fun _ _ _ _ _ _ => .error "") ∅ 5 shareConn (.bare 1 .dev) shareInbound "Mum phone" _ rfl
    rfl
  exact ⟨_, text', rfl, htext', hiff.mpr (by decide)⟩

/-- A label of two lines passes both normalizers and changes the directives: the
recipient's configuration gains a `PostUp` line. -/
theorem shareText_postUp_injected :
    normalizeShareLabel "a\nPostUp = sh" = .ok "a\nPostUp = sh" ∧
      ConnCreateRequest.validate ⟨some "a\nPostUp = sh"⟩ = .ok () ∧
      ConnCreateRequest.normalizedLabel ⟨some "a\nPostUp = sh"⟩ = some "a\nPostUp = sh" ∧
      ∃ text text', shareText "x" = .ok text ∧ shareText "a\nPostUp = sh" = .ok text' ∧
        Text.directives text'.toList ≠ Text.directives text.toList := by
  refine ⟨by decide, by decide, by decide, ?_⟩
  have hplain : ∃ text, shareInbound.createLink constantBackend (fun _ _ _ _ _ _ => .error "") 5
      shareConn "n" "10.0.0.2" "x | n" = .ok text := ⟨_, rfl⟩
  obtain ⟨plain, hplain⟩ := hplain
  have htag : shareFeedIsRawIni shareInbound.tag = true := rfl
  obtain ⟨c⟩ := createLink_labelComment constantBackend _ htag hplain
  obtain ⟨text', text, htext', htext, hiff⟩ :=
    labelComment_directives_iff c "n" "a\nPostUp = sh" "x" (by decide)
  refine ⟨text, text', htext, htext', fun h => ?_⟩
  exact absurd (hiff.mp h) (by decide)

end Fcore
