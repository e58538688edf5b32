/-
# The table of optional tags

The rules in the order in which they are used. Later rules see what earlier ones have left, so the
order is part of the meaning: the tags of the document skeleton go first, lists and paragraphs
before the parts of tables, and end tags of void elements last.
-/
import HtmlMinifier.OptionalTag.Rule

namespace HtmlMinifier.OptionalTag

/-- A rule that removes a tag where one of these follows. -/
def Rule.before (name tag : String) (follows : List Follow) : Rule :=
  { name := name, tags := [tag.toList], followedBy := follows }

/-- A rule that removes a tag and leaves the blank after it. -/
def Rule.exact (name tag : String) : Rule :=
  { name := name, tags := [tag.toList], trailingBlank := false }

/-- One of these literals follows. -/
def Follow.starts (literals : List String) : Follow := .literal (literals.map String.toList)

/-- The rules in the order of their passes. -/
def rules : List Rule :=
  [ .exact "html-start" "html",
    .exact "html-end" "/html",
    .exact "head-start" "head",
    .exact "head-end" "/head",
    { Rule.exact "body-start" "body" with policy := .lenientOnly },
    { Rule.exact "body-start-strict" "body" with
      notFollowedBy := [" ", "\t", "\n", "\r", "\x0c", "<script", "<style"].map String.toList
      policy := .strictOnly },
    .exact "body-end" "/body",
    .before "li-end" "/li" [.starts ["<li", "</ul", "</ol", "</menu"]],
    .before "dt-end" "/dt" [.starts ["<dt", "<dd"]],
    .before "dd-end" "/dd" [.starts ["<dd", "<dt", "</dl"]],
    .before "p-end-before-block" "/p" [.startTag Element.paragraphClosers],
    .before "p-end-at-end" "/p" [.endOfText],
    .before "p-end-before-parent-end" "/p" [.endTagExcept Element.paragraphEndBlockers],
    .before "rt-end" "/rt" [.starts ["<rt", "<rp", "</"]],
    .before "rp-end" "/rp" [.starts ["<rt", "<rp", "</"]],
    .before "optgroup-end" "/optgroup" [.starts ["<optgroup", "</"]],
    .before "option-end" "/option" [.starts ["<option", "<optgroup", "</"]],
    { Rule.before "colgroup-start" "colgroup" [.startTag ["col".toList]] with
      notPrecededBy := ["</colgroup>".toList] },
    .before "colgroup-end" "/colgroup" [],
    .before "thead-end" "/thead" [.starts ["<tbody", "<tfoot"]],
    { Rule.before "tbody-start" "tbody" [.starts ["<tr"]] with
      precededBy := ["</thead>", "</tbody>", "</tfoot>"].map String.toList },
    .before "tbody-end" "/tbody" [.starts ["<tbody", "<tfoot"], .starts ["</"]],
    .before "tfoot-end" "/tfoot" [.starts ["<tbody"], .starts ["</"]],
    .before "tr-end" "/tr" [.starts ["<tr"], .starts ["</"]],
    .before "tr-end-before-section" "/tr" [.starts ["<tbody", "<tfoot", "<thead"]],
    .before "td-end" "/td" [.starts ["<td", "<th", "<tr"], .starts ["</"]],
    .before "th-end" "/th" [.starts ["<td", "<th", "<tr"], .starts ["</"]],
    .before "td-end-before-section" "/td" [.starts ["<tbody", "<tfoot"]],
    .before "th-end-before-section" "/th" [.starts ["<tbody", "<tfoot"]],
    { name := "void-end", tags := Element.voidNames.map fun name => '/' :: name } ]

end HtmlMinifier.OptionalTag
