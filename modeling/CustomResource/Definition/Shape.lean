import CustomResource.Decode.Shape

/-!
# The shape of a definition

The names and the spec of a definition are only passed on. Here is which members they have.

## Main definitions

* `Definition.namesShape`: the names of a kind.
* `Definition.specShape`: the spec of a definition.
-/

namespace CustomResource.Definition

open Shape (field requiredText requiredFlag)

/-- The shape of the names of a definition. -/
def namesShape : Shape :=
  .record "CustomResourceDefinitionNames"
    [ field "categories" (.list .text),
      requiredText "kind",
      field "listKind" .text,
      requiredText "plural",
      field "shortNames" (.list .text),
      field "singular" .text ]

/-- The shape of a version of a kind. -/
def versionShape : Shape :=
  .record "CustomResourceDefinitionVersion"
    [ field "additionalPrinterColumns" (.list (.record "CustomResourceColumnDefinition"
        [ field "description" .text,
          field "format" .text,
          requiredText "jsonPath",
          requiredText "name",
          field "priority" .int32,
          requiredText "type" ])),
      field "deprecated" .bool,
      field "deprecationWarning" .text,
      requiredText "name",
      field "schema" (.record "CustomResourceValidation" [field "openAPIV3Schema" .schema]),
      requiredFlag "served",
      requiredFlag "storage",
      field "subresources" (.record "CustomResourceSubresources"
        [ field "scale" (.record "CustomResourceSubresourceScale"
            [ field "labelSelectorPath" .text,
              requiredText "specReplicasPath",
              requiredText "statusReplicasPath" ]),
          field "status" .any ]) ]

/-- The shape of the conversion between versions. -/
def conversionShape : Shape :=
  .record "CustomResourceConversion"
    [ requiredText "strategy",
      field "webhook" (.record "WebhookConversion"
        [ field "clientConfig" (.record "WebhookClientConfig"
            [ field "caBundle" .bytes,
              field "service" (.record "ServiceReference"
                [ requiredText "name",
                  requiredText "namespace",
                  field "path" .text,
                  field "port" .int32 ]),
              field "url" .text ]),
          ("conversionReviewVersions", some (.array []), .list .text) ]) ]

/-- The shape of the spec of a definition. -/
def specShape : Shape :=
  .record "CustomResourceDefinitionSpec"
    [ field "conversion" conversionShape,
      requiredText "group",
      ("names", some namesShape.empty, namesShape),
      field "preserveUnknownFields" .bool,
      requiredText "scope",
      ("versions", some (.array []), .list versionShape) ]

end CustomResource.Definition
