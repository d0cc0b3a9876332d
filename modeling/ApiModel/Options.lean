import ApiModel.Decode

namespace ApiModel

structure Options where
  packageName : String := ""
  limitApis : OrderedSet String := []
  generateAllNamedSchemas : Bool := false
  allowParseErrors : Bool := false
  verbose : Bool := false
  deriving DecidableEq, Repr

namespace Options

def acceptsTag (o : Options) (tag : String) : Bool :=
  o.limitApis.isEmpty || o.limitApis.contains tag

def decode : Decoder Options :=
  .record "ConversionOptions"
    [ .lenient "packageName" .string fun v o => { o with packageName := v },
      .lenient "limitApis" .distinctStrings fun v o => { o with limitApis := v },
      .lenient "generateAllNamedSchemas" .bool
        fun v o => { o with generateAllNamedSchemas := v },
      .lenient "allowParseErrors" .bool fun v o => { o with allowParseErrors := v },
      .lenient "verbose" .bool fun v o => { o with verbose := v } ]
    {}

end Options

end ApiModel
